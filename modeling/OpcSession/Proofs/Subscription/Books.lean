import Mathlib.Data.List.Chain
import Mathlib.Data.List.DropRight
import OpcSession.Proofs.Lists
import OpcSession.Proofs.Subscription.Registry

/-!
# The books of a registry

A registry keeps a last sequence number for every subscription and counts notifications and
starts of publishing.  It keeps no record of what has been done with it.  Here such a record is
kept beside it: every step with the answer to it.  What the registry holds can then be read off
the record, after any steps in any order.

* `Registry.Transaction` — a step and its answer; what it does to the books;
* `Registry.accepted`, `Registry.notified`, `Registry.Registered` — what the record says;
* `Registry.Ledger` — a registry with the record of all that has been done with it;
* `Registry.Books`, `Registry.Books.enter` — the registry holds what the record says, and
  every step keeps it so;
* `Registry.Ledger.balanced` — the books of a registry at all times.
-/

namespace OpcSession

namespace Registry

/-- The results of a transfer speak against an id; one bad verdict among them
is enough. -/
def condemns (results : List (UInt32 × StatusCode)) (id : UInt32) : Bool :=
  results.any fun p => p.1 = id && !p.2.isGood

/-- A step and what was answered to it, for the record. -/
structure Transaction where
  step : Step
  answer : Answer
deriving Repr

namespace Transaction

/-- A subscription was added, and not refused. -/
def Adds (s : Subscription) (x : Transaction) : Prop := x = ⟨.add s, .accepted⟩

/-- The subscription with an id goes: it is removed, or the results of a
transfer speak against it. -/
def drops (id : UInt32) : Transaction → Bool
  | ⟨.remove id', .subscription _⟩ => id' = id
  | ⟨.transferred results, _⟩ => condemns results id
  | _ => false

/-- The sequence number of a notification that was accepted for an id, if that
is what happened. -/
def number? (id : UInt32) : Transaction → Option UInt32
  | ⟨.record id' sequence, .accepted⟩ => if id' = id then some sequence else none
  | _ => none

/-- A notification was accepted, for whichever id. -/
def notifies : Transaction → Bool
  | ⟨.record _ _, .accepted⟩ => true
  | _ => false

/-- Publishing started, with a reset or without. -/
def starts : Transaction → Bool
  | ⟨.startPublishing _, _⟩ => true
  | _ => false

/-- Publishing started with everything reset, as it does on a new session. -/
def resets : Transaction → Bool
  | ⟨.startPublishing reset, _⟩ => reset
  | _ => false

/-- The stream of notifications for an id begins anew: with a subscription
that was added, or with all others. -/
def renews (id : UInt32) : Transaction → Bool
  | ⟨.add s, .accepted⟩ => s.id = id
  | x => x.resets

variable {x : Transaction} {id : UInt32}

theorem number?_eq_none (hrefused : x.answer ≠ .accepted) : x.number? id = none := by
  unfold number?
  split
  · exact absurd rfl hrefused
  · rfl

theorem notifies_eq_false (hrefused : x.answer ≠ .accepted) : x.notifies = false := by
  unfold notifies
  split
  · exact absurd rfl hrefused
  · rfl

theorem starts_eq_false (hother : ∀ reset, x.step ≠ .startPublishing reset) :
    x.starts = false := by
  unfold starts
  split
  · exact absurd rfl (hother _)
  · rfl

theorem resets_eq_false (hother : ∀ reset, x.step ≠ .startPublishing reset) :
    x.resets = false := by
  unfold resets
  split
  · exact absurd rfl (hother _)
  · rfl

theorem renews_eq_false (hrefused : x.answer ≠ .accepted)
    (hother : ∀ reset, x.step ≠ .startPublishing reset) : x.renews id = false := by
  unfold renews
  split
  · exact absurd rfl hrefused
  · exact resets_eq_false hother

end Transaction

/-! ## What a record says -/

/-- The sequence numbers accepted for an id since its stream last began
anew. -/
def accepted (id : UInt32) (past : List Transaction) : List UInt32 :=
  (past.rtakeWhile fun x => !x.renews id).filterMap (·.number? id)

/-- How many notifications were accepted since everything was last reset,
whatever they were for. -/
def notified (past : List Transaction) : Nat :=
  (past.rtakeWhile fun x => !x.resets).countP (·.notifies)

/-- A subscription was added, and has not gone since: it was neither removed
nor lost in a transfer. -/
def Registered (past : List Transaction) (s : Subscription) : Prop :=
  ∃ before x after, past = before ++ x :: after ∧ x.Adds s ∧ ∀ y ∈ after, ¬ y.drops s.id

/-- The last of some sequence numbers, or 0 if there are none, which is the
number that every subscription begins with. -/
def lastOf (numbers : List UInt32) : UInt32 := numbers.getLast?.getD 0

open Transaction

variable {past : List Transaction} {x : Transaction} {id : UInt32} {r r' : Registry}

/-- One more transaction begins the numbers of an id anew, or adds one, or
leaves them. -/
theorem accepted_snoc (id : UInt32) (past : List Transaction) (x : Transaction) :
    accepted id (past ++ [x]) =
      if x.renews id then [] else accepted id past ++ (x.number? id).toList := by
  rw [accepted, List.rtakeWhile_concat]
  cases x.renews id with
  | true => rfl
  | false =>
      cases h : x.number? id <;> simp [accepted, h]

/-- One more transaction begins the count anew, or adds one, or leaves it. -/
theorem notified_snoc (past : List Transaction) (x : Transaction) :
    notified (past ++ [x]) =
      if x.resets then 0 else notified past + if x.notifies then 1 else 0 := by
  rw [notified, List.rtakeWhile_concat]
  cases x.resets with
  | true => rfl
  | false => simp [notified, List.countP_append, List.countP_singleton]

/-- After one more transaction that subscription is registered which it added,
or which was before and did not go by it. -/
theorem registered_snoc {s : Subscription} :
    Registered (past ++ [x]) s ↔ x.Adds s ∨ Registered past s ∧ ¬ x.drops s.id := by
  constructor
  · rintro ⟨before, y, after, hsplit, hadds, hstays⟩
    rcases split_snoc hsplit with ⟨-, rfl, -⟩ | ⟨rest, hearlier, rfl⟩
    · exact .inl hadds
    · exact .inr ⟨⟨before, y, rest, hearlier, hadds,
        fun w hw => hstays w (List.mem_append_left _ hw)⟩,
        hstays x (List.mem_append_right _ (List.mem_singleton_self x))⟩
  · rintro (hadds | ⟨⟨before, y, after, rfl, hadds, hstays⟩, hstay⟩)
    · exact ⟨past, x, [], rfl, hadds, List.forall_mem_nil _⟩
    · refine ⟨before, y, after ++ [x], by simp, hadds, fun w hw => ?_⟩
      rcases List.mem_append.mp hw with hw | hw
      · exact hstays w hw
      · obtain rfl := List.mem_singleton.mp hw
        exact hstay

@[simp]
theorem lastOf_nil : lastOf [] = 0 := rfl

/-- The last of some numbers is the one that came last. -/
@[simp]
theorem lastOf_snoc (numbers : List UInt32) (n : UInt32) : lastOf (numbers ++ [n]) = n := by
  simp [lastOf]

/-- Ascending numbers stay so with one that is beyond the last; the zero in
front is where each begins. -/
theorem ascending_snoc {numbers : List UInt32} {n : UInt32}
    (hascending : (0 :: numbers).Pairwise (· < ·)) (hbeyond : lastOf numbers < n) :
    (0 :: (numbers ++ [n])).Pairwise (· < ·) := by
  have hlast : (0 :: numbers).getLast? = some (lastOf numbers) := by
    rw [List.getLast?_cons]
    rfl
  rw [← List.isChain_iff_pairwise] at hascending ⊢
  rw [← List.cons_append, List.isChain_append]
  refine ⟨hascending, List.isChain_singleton n, fun y hy z hz => ?_⟩
  rw [hlast] at hy
  cases hy
  cases hz
  exact hbeyond

/-! ## What a registry holds -/

/-- A registry holds what the record says.  Each clause reads one part of the
registry off the past, and all of them together say that nothing else is in
it. -/
structure Books (past : List Transaction) (r : Registry) : Prop where
  /-- The entries stand in the order of their ids. -/
  order : r.Ascending
  /-- The subscriptions are those that are registered. -/
  subscriptions : ∀ s, s ∈ r.subscriptions ↔ Registered past s
  /-- The number kept for each is the last that was accepted for it. -/
  sequences : ∀ e ∈ r.entries, e.lastSequence = lastOf (accepted e.id past)
  /-- Numbers that were accepted for an id ascend, from above zero. -/
  ascending : ∀ id, (0 :: accepted id past).Pairwise (· < ·)
  /-- The count is of those accepted since the last reset. -/
  notifications : r.notifications = notified past
  /-- Every start of publishing was counted. -/
  publishStarts : r.publishStarts = past.countP (·.starts)

/-- Nothing is in a new registry, and nothing is on record. -/
theorem Books.nil : Books [] {} where
  order := .nil
  subscriptions s := by simp [Registry.subscriptions, Registered]
  sequences e he := absurd he List.not_mem_nil
  ascending id := by simp [accepted]
  notifications := rfl
  publishStarts := rfl

/-- What is neither accepted nor starts publishing adds nothing to the record,
and renews nothing: all that it may do is to drop subscriptions. -/
theorem Books.drop (h : Books past r) (hrefused : x.answer ≠ .accepted)
    (hother : ∀ reset, x.step ≠ .startPublishing reset)
    (hentries : r'.entries = r.entries.filter fun e => !x.drops e.id)
    (hnotifications : r'.notifications = r.notifications)
    (hpublishStarts : r'.publishStarts = r.publishStarts) : Books (past ++ [x]) r' := by
  have hsame : ∀ id, accepted id (past ++ [x]) = accepted id past := fun id => by
    rw [accepted_snoc, renews_eq_false hrefused hother, number?_eq_none hrefused]
    exact List.append_nil _
  refine ⟨?_, fun s => ?_, fun e he => ?_, fun id => ?_, ?_, ?_⟩
  · refine h.order.of_sublist ?_
    rw [ids, ids, hentries]
    exact List.filter_sublist.map _
  · rw [registered_snoc, ← h.subscriptions s, Registry.subscriptions, Registry.subscriptions,
      hentries]
    have hadds : ¬ x.Adds s := fun hadds => hrefused (hadds ▸ rfl)
    simp only [List.mem_map, List.mem_filter, hadds, false_or]
    constructor
    · rintro ⟨e, ⟨he, hstays⟩, rfl⟩
      exact ⟨⟨e, he, rfl⟩, by simpa [Registration.id] using hstays⟩
    · rintro ⟨⟨e, he, rfl⟩, hstays⟩
      exact ⟨e, ⟨he, by simpa [Registration.id] using hstays⟩, rfl⟩
  · rw [hentries] at he
    rw [hsame]
    exact h.sequences e (List.mem_of_mem_filter he)
  · rw [hsame]
    exact h.ascending id
  · rw [hnotifications, h.notifications, notified_snoc, resets_eq_false hother,
      notifies_eq_false hrefused]
    rfl
  · rw [hpublishStarts, h.publishStarts, List.countP_append, List.countP_singleton,
      starts_eq_false hother]
    rfl

/-- What is neither accepted, nor starts publishing, nor drops anything,
leaves the books as they are. -/
theorem Books.aside (h : Books past r) (hrefused : x.answer ≠ .accepted)
    (hother : ∀ reset, x.step ≠ .startPublishing reset) (hstay : ∀ id, x.drops id = false)
    (hentries : r'.entries = r.entries) (hnotifications : r'.notifications = r.notifications)
    (hpublishStarts : r'.publishStarts = r.publishStarts) : Books (past ++ [x]) r' :=
  h.drop hrefused hother
    (hentries.trans (List.filter_eq_self.mpr fun e _ => by rw [hstay]; rfl).symm)
    hnotifications hpublishStarts

/-- A subscription that is added is registered from then on, with no number
accepted. -/
theorem Books.add (h : Books past r) {s : Subscription} (hadded : r.add s = .ok r') :
    Books (past ++ [⟨.add s, .accepted⟩]) r' := by
  have horder := h.order.add hadded
  unfold Registry.add at hadded
  split at hadded
  · cases hadded
  rename_i hnobody
  cases hadded
  have hothers : ∀ e ∈ r.entries, e.id ≠ s.id := fun e he hsame =>
    List.find?_eq_none.mp hnobody e he (decide_eq_true hsame)
  refine ⟨horder, fun s' => ?_, fun e he => ?_, fun id => ?_, ?_, ?_⟩
  · rw [registered_snoc, ← h.subscriptions]
    simp only [Registry.subscriptions, List.mem_map, mem_insertSorted]
    constructor
    · rintro ⟨e, rfl | he, rfl⟩
      · exact .inl rfl
      · exact .inr ⟨⟨e, he, rfl⟩, by simp [drops]⟩
    · rintro (hadds | ⟨⟨e, he, rfl⟩, -⟩)
      · cases hadds
        exact ⟨_, .inl rfl, rfl⟩
      · exact ⟨e, .inr he, rfl⟩
  · rw [accepted_snoc]
    rcases mem_insertSorted.mp he with rfl | he
    · simp [renews, Registration.id]
    · rw [if_neg (by simpa [renews] using (hothers e he).symm)]
      simpa [number?] using h.sequences e he
  · rw [accepted_snoc]
    split
    · exact List.pairwise_singleton _ _
    · simpa [number?] using h.ascending id
  · rw [notified_snoc]
    exact h.notifications
  · rw [List.countP_append]
    exact h.publishStarts

/-- A notification that is accepted moves the number of its subscription, and
is counted. -/
theorem Books.record (h : Books past r) {id sequence : UInt32}
    (hrecorded : r.record id sequence = .ok r') :
    Books (past ++ [⟨.record id sequence, .accepted⟩]) r' := by
  have horder := h.order.record hrecorded
  unfold Registry.record at hrecorded
  split at hrecorded
  · cases hrecorded
  rename_i entry hfound
  split at hrecorded
  · cases hrecorded
  rename_i hbeyond
  cases hrecorded
  have hsame : entry.id = id := by simpa using List.find?_some hfound
  have hnumbers : ∀ id', accepted id' (past ++ [⟨.record id sequence, .accepted⟩]) =
      accepted id' past ++ if id = id' then [sequence] else [] := fun id' => by
    rw [accepted_snoc]
    by_cases hown : id = id' <;> simp [renews, resets, number?, hown]
  refine ⟨horder, fun s => ?_, fun e he => ?_, fun id' => ?_, ?_, ?_⟩
  · rw [registered_snoc, ← h.subscriptions]
    have hkept : ∀ e : Registration, (if e.id = id then { e with lastSequence := sequence }
        else e).subscription = e.subscription := fun e => by split <;> rfl
    simp [Registry.subscriptions, Adds, drops, Function.comp_def, hkept]
  · obtain ⟨e, hmem, rfl⟩ := List.mem_map.mp he
    by_cases hown : e.id = id
    · rw [if_pos hown]
      change sequence = lastOf (accepted e.id _)
      rw [hnumbers, if_pos hown.symm, lastOf_snoc]
    · rw [if_neg hown, hnumbers, if_neg (Ne.symm hown), List.append_nil]
      exact h.sequences e hmem
  · rw [hnumbers]
    split
    · rename_i hown
      subst hown
      refine ascending_snoc (h.ascending id) ?_
      rw [← hsame, ← h.sequences entry (List.mem_of_find?_eq_some hfound)]
      exact UInt32.not_le.mp hbeyond
    · simpa using h.ascending id'
  · rw [notified_snoc]
    exact congrArg (· + 1) h.notifications
  · rw [List.countP_append]
    exact h.publishStarts

/-- To start publishing is counted, and on a new session everything begins
anew. -/
theorem Books.startPublishing (h : Books past r) (reset : Bool) :
    Books (past ++ [⟨.startPublishing reset, .nothing⟩]) (r.startPublishing reset) := by
  have hsame : (r.startPublishing reset).subscriptions = r.subscriptions := by
    cases reset with
    | false => rfl
    | true => exact List.map_map
  have hnumbers : ∀ id, accepted id (past ++ [⟨.startPublishing reset, .nothing⟩]) =
      if reset then [] else accepted id past := fun id => by
    rw [accepted_snoc]
    cases reset <;> simp [renews, resets, number?]
  refine ⟨h.order.startPublishing reset, fun s => ?_, fun e he => ?_, fun id => ?_, ?_, ?_⟩
  · rw [hsame, h.subscriptions, registered_snoc]
    simp [Adds, drops]
  · rw [hnumbers]
    cases reset with
    | false => exact h.sequences e he
    | true =>
        obtain ⟨e, -, rfl⟩ := List.mem_map.mp he
        rfl
  · rw [hnumbers]
    cases reset with
    | false => exact h.ascending id
    | true => exact List.pairwise_singleton _ _
  · rw [notified_snoc]
    cases reset with
    | false => exact h.notifications
    | true => rfl
  · rw [List.countP_append, ← h.publishStarts]
    cases reset <;> rfl

/-- **A transfer drops what its results speak against**, and nothing else,
whatever the order of either. -/
theorem dropFailed_fst (results : List (UInt32 × StatusCode)) (r : Registry) :
    (r.dropFailed results).1 =
      { r with entries := r.entries.filter fun e => !condemns results e.id } := by
  induction results generalizing r with
  | nil => simp [Registry.dropFailed, condemns]
  | cons result results ih =>
      obtain ⟨id, status⟩ := result
      rw [Registry.dropFailed]
      split
      · rename_i hgood
        rw [ih]
        simp [condemns, hgood]
      · rename_i hbad
        have hboth : ∀ e : Registration, condemns ((id, status) :: results) e.id =
            (decide (e.id = id) || condemns results e.id) := fun e => by
          simp [condemns, hbad, eq_comm]
        split
        · rename_i hnobody
          rw [ih]
          congr 1
          refine List.filter_congr fun e he => ?_
          rw [hboth, decide_eq_false (by simpa using List.find?_eq_none.mp hnobody e he),
            Bool.false_or]
        · rw [ih, erase]
          simp [List.filter_filter, hboth, Bool.and_comm]

/-- What a transfer drops is registered no more, and the others keep their
numbers. -/
theorem Books.transferred (h : Books past r) (results : List (UInt32 × StatusCode)) :
    Books (past ++ [⟨.transferred results, .nothing⟩]) (r.transferCompleted results).1 := by
  have hleft : (r.transferCompleted results).1 =
      { r with entries := r.entries.filter fun e => !condemns results e.id } :=
    dropFailed_fst results r
  rw [hleft]
  exact h.drop (by simp) (by simp) rfl rfl rfl

theorem Books.remove (h : Books past r) {id : UInt32} {s : Subscription}
    (hremoved : r.remove id = .ok (s, r')) :
    Books (past ++ [⟨.remove id, .subscription (some s)⟩]) r' := by
  unfold Registry.remove at hremoved
  split at hremoved
  · cases hremoved
  cases hremoved
  refine h.drop (by simp) (by simp) ?_ rfl rfl
  simp [erase, drops, eq_comm]

/-! ## All that is done with a registry -/

/-- A registry, and the record of all that has been done with it. -/
structure Ledger where
  /-- The registry as it is now. -/
  registry : Registry := {}
  /-- What has been done with it, in order. -/
  past : List Transaction := []

namespace Ledger

/-- A step is performed, and put on record with its answer, also when it was
refused. -/
def enter (l : Ledger) (s : Step) : Ledger where
  registry := (l.registry.perform s).2.1
  past := l.past ++ [⟨s, (l.registry.perform s).1⟩]

/-- A new registry, and some steps performed on it one after the other. -/
def of (steps : List Step) : Ledger := steps.foldl enter {}

end Ledger

/-- **Every step keeps the books.**  There is one lemma above for each kind of
step; those that are refused are set aside. -/
theorem Books.enter {l : Ledger} (h : Books l.past l.registry) (s : Step) :
    Books (l.enter s).past (l.enter s).registry := by
  unfold Ledger.enter
  cases s with
  | add s =>
      simp only [perform]
      cases hadded : l.registry.add s with
      | ok r' => exact h.add hadded
      | error e => exact h.aside (by simp) (by simp) (fun _ => rfl) rfl rfl rfl
  | remove id =>
      simp only [perform]
      cases hremoved : l.registry.remove id with
      | ok left => exact h.remove hremoved
      | error e => exact h.aside (by simp) (by simp) (fun _ => rfl) rfl rfl rfl
  | record id sequence =>
      simp only [perform]
      cases hrecorded : l.registry.record id sequence with
      | ok r' => exact h.record hrecorded
      | error e => exact h.aside (by simp) (by simp) (fun _ => rfl) rfl rfl rfl
  | startPublishing reset => exact h.startPublishing reset
  | transferred results => exact h.transferred results
  | _ => exact h.aside (by simp [perform]) (by simp) (fun _ => rfl) rfl rfl rfl

/-- Whatever steps were performed, the registry holds what the record says; by
induction on the steps. -/
theorem Books.of (steps : List Step) : Books (Ledger.of steps).past (Ledger.of steps).registry :=
  List.foldlRecOn (motive := fun l : Ledger => Books l.past l.registry) steps Ledger.enter
    Books.nil fun _ h s _ => h.enter s

/-- A step that is refused changes nothing, and nobody is told anything; there
is no step that is done by half. -/
theorem perform_refused {s : Step} {e : SubscriptionError}
    (hrefused : (r.perform s).1 = .refused e) : (r.perform s).2 = (r, []) := by
  cases s with
  | add s =>
      simp only [perform] at hrefused ⊢
      split at hrefused
      · cases hrefused
      · rfl
  | remove id =>
      simp only [perform] at hrefused ⊢
      split at hrefused
      · cases hrefused
      · rfl
  | record id sequence =>
      simp only [perform] at hrefused ⊢
      split at hrefused
      · cases hrefused
      · rfl
  | _ => cases hrefused

/-- An id is in the registry if a subscription with it is. -/
theorem mem_ids : id ∈ r.ids ↔ ∃ s ∈ r.subscriptions, s.id = id := by
  simp [ids, Registry.subscriptions, Registration.id]

/-- Nothing is found under an id that is not registered. -/
theorem find?_eq_none (hunknown : id ∉ r.ids) : r.find? id = none :=
  List.find?_eq_none.mpr fun e he hsame =>
    hunknown (List.mem_map.mpr ⟨e, he, of_decide_eq_true hsame⟩)

/-- What is registered has its entry, with the last number that was accepted
for it. -/
theorem Books.find? (h : Books past r) {s : Subscription} (hregistered : Registered past s) :
    r.find? s.id = some ⟨s, lastOf (accepted s.id past)⟩ := by
  obtain ⟨e, he, rfl⟩ := List.mem_map.mp ((h.subscriptions s).mpr hregistered)
  have hlast : lastOf (accepted e.subscription.id past) = e.lastSequence := (h.sequences e he).symm
  rw [hlast]
  exact (find?_key_eq_some_iff (h.order.imp UInt32.ne_of_lt) e.id e).mpr ⟨he, rfl⟩

/-- **The books of a registry balance.**  What is asked of it is answered by
the record, what is refused is without effect, and everything that it tells
can be read off the record. -/
structure Ledger.Balanced (l : Ledger) : Prop where
  /-- A step that is refused changes nothing, and nobody is told anything of
  it. -/
  refused : ∀ s e, (l.registry.perform s).1 = .refused e →
    (l.registry.perform s).2 = (l.registry, [])
  /-- A subscription is added unless its id is registered, and then it is
  refused by that name. -/
  added : ∀ s, (l.registry.perform (.add s)).1 =
    if s.id ∈ l.registry.ids then .refused (.alreadyExists s.id) else .accepted
  /-- A subscription that is registered can be removed, and no other; whoever
  removes it is given it. -/
  removed : ∀ s, Registered l.past s →
    (l.registry.perform (.remove s.id)).1 = .subscription (some s)
  /-- What is not registered cannot be removed. -/
  unremoved : ∀ id ∉ l.registry.ids, (l.registry.perform (.remove id)).1 = .refused (.notFound id)
  /-- A notification is accepted for a subscription that is registered if its
  number is beyond the last one, and for no other. -/
  recorded : ∀ s n, Registered l.past s → (l.registry.perform (.record s.id n)).1 =
    if n ≤ lastOf (accepted s.id l.past) then
      .refused (.staleSequence s.id (lastOf (accepted s.id l.past)) n)
    else .accepted
  /-- Nothing is accepted for what is not registered. -/
  unrecorded : ∀ id ∉ l.registry.ids, ∀ n,
    (l.registry.perform (.record id n)).1 = .refused (.notFound id)
  /-- The numbers accepted for an id since its stream last began anew
  ascend. -/
  ascending : ∀ id, (accepted id l.past).Pairwise (· < ·)
  /-- The last number of a subscription is the last of these, or 0 if there
  are none. -/
  last : ∀ s, Registered l.past s →
    l.registry.lastSequence? s.id = some (lastOf (accepted s.id l.past))
  /-- What is not registered has no sequence number. -/
  nothing : ∀ id ∉ l.registry.ids, l.registry.lastSequence? id = none
  /-- The count is of the notifications that were accepted since the last
  reset. -/
  notifications : l.registry.notifications = notified l.past
  /-- The count is of the times that publishing was started. -/
  publishStarts : l.registry.publishStarts = l.past.countP (·.starts)
  /-- The ids are those of what is registered, and stand in ascending order,
  so each of them once. -/
  ids : l.registry.ids.Pairwise (· < ·)
  /-- The ids are those of what is registered. -/
  mem_ids : ∀ id, id ∈ l.registry.ids ↔ ∃ s, Registered l.past s ∧ s.id = id
  /-- The subscriptions are what is registered, in the order of their ids,
  each once. -/
  order : l.registry.subscriptions.map (·.id) = l.registry.ids
  /-- The subscriptions are what was added and has not gone. -/
  subscriptions : ∀ s, s ∈ l.registry.subscriptions ↔ Registered l.past s

/-- A registry whose books are kept is balanced in every respect that can be
asked of it. -/
theorem Books.balance {l : Ledger} (h : Books l.past l.registry) : l.Balanced where
  refused _ _ := perform_refused
  added s := by
    split
    · rename_i hknown
      obtain ⟨s', hthere, hsame⟩ := mem_ids.mp hknown
      have hfound := h.find? ((h.subscriptions s').mp hthere)
      simp only [perform, Registry.add, hsame ▸ hfound]
    · rename_i hunknown
      simp only [perform, Registry.add, find?_eq_none hunknown]
  removed s hregistered := by simp only [perform, Registry.remove, h.find? hregistered]
  unremoved id hunknown := by simp only [perform, Registry.remove, find?_eq_none hunknown]
  recorded s n hregistered := by
    simp only [perform, Registry.record, h.find? hregistered]
    by_cases hstale : n ≤ lastOf (accepted s.id l.past)
    · simp only [if_pos hstale]
    · simp only [if_neg hstale]
  unrecorded id hunknown n := by simp only [perform, Registry.record, find?_eq_none hunknown]
  ascending id := (h.ascending id).of_cons
  last s hregistered := by simp only [lastSequence?, h.find? hregistered, Option.map_some]
  nothing id hunknown := by simp only [lastSequence?, find?_eq_none hunknown, Option.map_none]
  notifications := h.notifications
  publishStarts := h.publishStarts
  ids := h.order
  mem_ids id := by simp only [Registry.mem_ids, h.subscriptions]
  order := List.map_map
  subscriptions := h.subscriptions

/-- **The books of a registry balance**, after any steps in any order,
accepted or refused: what it holds, what it counts and what it answers can all
be told from the steps that it has taken. -/
theorem Ledger.balanced (steps : List Step) : (Ledger.of steps).Balanced :=
  (Books.of steps).balance

/-- A subscription that is removed and added again begins anew, and what was
accepted for it before still counts. -/
example :
    let s : Subscription := { id := 3, interval := ⟨0⟩ }
    let l := Ledger.of [.add s, .record 3 7, .remove 3, .add s, .record 3 1, .record 3 1]
    accepted 3 l.past = [1] ∧ l.registry.lastSequence? 3 = some 1 ∧
      l.registry.notifications = 2 := by
  decide

end Registry

end OpcSession
