import Mathlib.Data.List.Basic
import OpcSession.Session.Services
import OpcSession.Subscription.Program

/-!
# What a transfer leaves of a registry

The registry keeps its entries in ascending order of their ids, whatever is done with it, so
every subscription has one place.  The results of a transfer are verdicts on ids in the same
order.  What is dropped is what has a verdict that is not good, and the listeners learn of it
in the order of the entries, whatever else the results speak of.

* `Registry.Ascending`, `Registry.Ascending.perform` — the order, which every step keeps;
* `Registry.Ascending.transferCompleted` — what a transfer drops, and who is told;
* `Registry.Ascending.judged` — the same where there is one verdict for every entry;
* `Registry.Ascending.condemned` — and where there is one verdict for all that was asked for.
-/

namespace OpcSession

namespace Registry

/-- The entries stand in ascending order of their ids, so no id has two
entries and a transfer can go through both lists side by side. -/
def Ascending (r : Registry) : Prop := r.ids.Pairwise (· < ·)

variable {r r' : Registry}

theorem Ascending.entries (h : r.Ascending) : r.entries.Pairwise (·.id < ·.id) :=
  List.pairwise_map.mp h

/-! ## The order is kept -/

/-- What is put at its place is there, with all the others. -/
theorem mem_insertSorted {x y : Registration} {ys : List Registration} :
    y ∈ insertSorted x ys ↔ y = x ∨ y ∈ ys := by
  induction ys with
  | nil => simp [insertSorted]
  | cons z zs ih =>
      simp only [insertSorted]
      split
      · simp
      · simp only [List.mem_cons, ih, or_left_comm]

/-- What is put at its place leaves the rest in order, if its id is new. -/
theorem pairwise_insertSorted {x : Registration} {ys : List Registration}
    (hsorted : ys.Pairwise (·.id < ·.id)) (hnew : ∀ y ∈ ys, y.id ≠ x.id) :
    (insertSorted x ys).Pairwise (·.id < ·.id) := by
  induction ys with
  | nil => simp [insertSorted]
  | cons y ys ih =>
      obtain ⟨hfirst, hrest⟩ := List.pairwise_cons.mp hsorted
      simp only [insertSorted]
      split
      · rename_i hbefore
        refine List.pairwise_cons.mpr ⟨fun z hz => ?_, hsorted⟩
        rcases List.mem_cons.mp hz with rfl | hz
        · exact hbefore
        · exact UInt32.lt_trans hbefore (hfirst z hz)
      · rename_i hbehind
        have hafter : y.id < x.id :=
          UInt32.lt_of_le_of_ne (UInt32.not_lt.mp hbehind) (hnew y List.mem_cons_self)
        refine List.pairwise_cons.mpr ⟨fun z hz => ?_, ?_⟩
        · rcases mem_insertSorted.mp hz with rfl | hz
          · exact hafter
          · exact hfirst z hz
        · exact ih hrest fun z hz => hnew z (List.mem_cons_of_mem _ hz)

/-- A registry with some of the ids of another is in order if that is. -/
theorem Ascending.of_sublist (h : r.Ascending) (hfewer : r'.ids.Sublist r.ids) : r'.Ascending :=
  h.sublist hfewer

theorem Ascending.add (h : r.Ascending) {s : Subscription} (hadded : r.add s = .ok r') :
    r'.Ascending := by
  unfold Registry.add at hadded
  split at hadded
  · cases hadded
  · rename_i hnobody
    cases hadded
    refine List.pairwise_map.mpr (pairwise_insertSorted h.entries fun y hy hsame => ?_)
    exact List.find?_eq_none.mp hnobody y hy (decide_eq_true hsame)

theorem ids_erase (r : Registry) (id : UInt32) : (r.erase id).ids.Sublist r.ids :=
  List.filter_sublist.map _

theorem Ascending.remove (h : r.Ascending) {id : UInt32} {s : Subscription}
    (hremoved : r.remove id = .ok (s, r')) : r'.Ascending := by
  unfold Registry.remove at hremoved
  split at hremoved
  · cases hremoved
  · cases hremoved
    exact h.of_sublist (ids_erase r id)

theorem Ascending.record (h : r.Ascending) {id sequence : UInt32}
    (hrecorded : r.record id sequence = .ok r') : r'.Ascending := by
  unfold Registry.record at hrecorded
  split at hrecorded
  · cases hrecorded
  · split at hrecorded
    · cases hrecorded
    · cases hrecorded
      have hsame : (r.entries.map fun e =>
          if e.id = id then { e with lastSequence := sequence } else e).map (·.id) = r.ids := by
        rw [List.map_map]
        refine List.map_congr_left fun e _ => ?_
        simp only [Function.comp_apply]
        split <;> rfl
      exact h.of_sublist (hsame ▸ List.Sublist.refl _)

theorem ids_startPublishing (r : Registry) (reset : Bool) :
    (r.startPublishing reset).ids = r.ids := by
  cases reset with
  | false => rfl
  | true => exact List.map_map

/-- To start publishing leaves the order as it is, with or without a reset. -/
theorem Ascending.startPublishing (h : r.Ascending) (reset : Bool) :
    (r.startPublishing reset).Ascending := by
  rw [Ascending, ids_startPublishing]
  exact h

theorem ids_dropFailed (results : List (UInt32 × StatusCode)) (r : Registry) :
    (r.dropFailed results).1.ids.Sublist r.ids := by
  induction results generalizing r with
  | nil => exact .refl _
  | cons result results ih =>
      rw [dropFailed]
      split
      · exact ih r
      · split
        · exact ih r
        · exact (ih _).trans (ids_erase r _)

theorem Ascending.transferred (h : r.Ascending) (results : List (UInt32 × StatusCode)) :
    (r.transferCompleted results).1.Ascending :=
  h.of_sublist (ids_dropFailed results r)

/-- **Whatever is done with a registry, its entries stay in order.**  Every
law about transfers may therefore assume it. -/
theorem Ascending.perform (h : r.Ascending) (s : Step) : (r.perform s).2.1.Ascending := by
  cases s with
  | add s =>
      simp only [Registry.perform]
      split
      · exact h.add ‹_›
      · exact h
  | remove id =>
      simp only [Registry.perform]
      split
      · exact h.remove ‹_›
      · exact h
  | record id sequence =>
      simp only [Registry.perform]
      split
      · exact h.record ‹_›
      · exact h
  | startPublishing reset => exact h.startPublishing reset
  | transferred results => exact h.transferred results
  | _ => exact h

/-! ## Verdicts -/

/-- The verdict on a subscription, if it is not good; the first that speaks of
its id counts. -/
def fault? (results : List (UInt32 × StatusCode)) (e : Registration) : Option StatusCode :=
  ((results.find? (·.1 = e.id)).map (·.2)).filter (!·.isGood)

/-- The faults among the results, each with the entry that it is about. -/
def faults (results : List (UInt32 × StatusCode)) (es : List Registration) :
    List (Subscription × StatusCode) :=
  es.filterMap fun e => (fault? results e).map (e.subscription, ·)

variable {id : UInt32} {status : StatusCode} {results : List (UInt32 × StatusCode)}

/-- A good verdict faults nothing, and may be left out of the results. -/
theorem fault?_cons_good (hfirst : ∀ p ∈ results, id < p.1) (hgood : status.isGood)
    (e : Registration) : fault? ((id, status) :: results) e = fault? results e := by
  simp only [fault?, List.find?_cons]
  by_cases hsame : id = e.id
  · have hnone : results.find? (·.1 = e.id) = none :=
      List.find?_eq_none.mpr fun p hp => by
        have hlater := hfirst p hp
        simpa [← hsame] using (UInt32.ne_of_lt hlater).symm
    simp [hsame, hnone, hgood]
  · simp [hsame]

/-- A verdict is on one entry only, so for another it may be left out. -/
theorem fault?_cons_other {e : Registration} (hother : e.id ≠ id) :
    fault? ((id, status) :: results) e = fault? results e := by
  simp [fault?, hother.symm]

/-- A verdict that is not good faults the entry that it is on. -/
theorem fault?_cons_bad {e : Registration} (hsame : e.id = id) (hbad : ¬ status.isGood) :
    fault? ((id, status) :: results) e = some status := by
  simp [fault?, hsame, hbad]

/-- Results that are all beyond an entry do not speak of it; that is where
their order is used. -/
theorem fault?_eq_none {e : Registration} (hbeyond : ∀ p ∈ results, e.id < p.1) :
    fault? results e = none := by
  have hnone : results.find? (·.1 = e.id) = none :=
    List.find?_eq_none.mpr fun p hp => by simpa using (UInt32.ne_of_lt (hbeyond p hp)).symm
  simp [fault?, hnone]

/-- What is kept of some entries, and what is told of them, depends on the
verdicts on these alone. -/
theorem faults_congr {results results' : List (UInt32 × StatusCode)} (es : List Registration)
    (hsame : ∀ e ∈ es, fault? results e = fault? results' e) :
    es.filter (fun e => (fault? results e).isNone) =
        es.filter (fun e => (fault? results' e).isNone) ∧
      faults results es = faults results' es :=
  ⟨List.filter_congr fun e he => by rw [hsame e he],
    List.filterMap_congr fun e he => by rw [hsame e he]⟩

/-- The first of the results takes away the entry that it faults, and is told
first: no later one speaks of what stands before that entry. -/
theorem faults_first {before after : List Registration} {entry : Registration}
    (hsorted : (before ++ entry :: after).Pairwise (·.id < ·.id)) (hsame : entry.id = id)
    (hfirst : ∀ p ∈ results, id < p.1) (hbad : ¬ status.isGood) :
    (before ++ entry :: after).filter (fun e => (fault? ((id, status) :: results) e).isNone) =
        (before ++ after).filter (fun e => (fault? results e).isNone) ∧
      faults ((id, status) :: results) (before ++ entry :: after) =
        (entry.subscription, status) :: faults results (before ++ after) := by
  obtain ⟨-, hrest, horder⟩ := List.pairwise_append.mp hsorted
  have hbehind : ∀ e ∈ before, e.id < id := fun e he => hsame ▸ horder e he entry List.mem_cons_self
  have hbeyond : ∀ e ∈ after, id < e.id := fun e he => hsame ▸ (List.pairwise_cons.mp hrest).1 e he
  have hkeptBefore : ∀ e ∈ before, fault? ((id, status) :: results) e = fault? results e :=
    fun e he => fault?_cons_other (UInt32.ne_of_lt (hbehind e he))
  have hkeptAfter : ∀ e ∈ after, fault? ((id, status) :: results) e = fault? results e :=
    fun e he => fault?_cons_other (UInt32.ne_of_lt (hbeyond e he)).symm
  have hfaulted : fault? ((id, status) :: results) entry = some status := fault?_cons_bad hsame hbad
  have huntold : faults results before = [] := by
    refine List.filterMap_eq_nil_iff.mpr fun e he => ?_
    rw [fault?_eq_none fun p hp => UInt32.lt_trans (hbehind e he) (hfirst p hp)]
    rfl
  obtain ⟨hkeptBefore, htoldBefore⟩ := faults_congr before hkeptBefore
  obtain ⟨hkeptAfter, htoldAfter⟩ := faults_congr after hkeptAfter
  constructor
  · rw [List.filter_append, List.filter_append, hkeptBefore,
      List.filter_cons_of_neg (by simp [hfaulted]), hkeptAfter]
  · have hone : faults ((id, status) :: results) (entry :: after) =
        (entry.subscription, status) :: faults results after := by
      rw [← htoldAfter]
      simp [faults, hfaulted]
    have hapart : ∀ (results : List (UInt32 × StatusCode)) (es es' : List Registration),
        faults results (es ++ es') = faults results es ++ faults results es' :=
      fun _ _ _ => List.filterMap_append
    rw [hapart, hapart, htoldBefore, huntold, hone]
    rfl

/-- **Of a registry in order, the results of a transfer drop exactly what they
fault**, and it is collected in the order of the entries. -/
theorem Ascending.dropFailed (h : r.Ascending) (results : List (UInt32 × StatusCode))
    (hascending : (results.map (·.1)).Pairwise (· < ·)) :
    r.dropFailed results =
      ({ r with entries := r.entries.filter fun e => (fault? results e).isNone },
        faults results r.entries) := by
  induction results generalizing r with
  | nil =>
      have heverything : r.entries.filter (fun e => (fault? [] e).isNone) = r.entries :=
        List.filter_eq_self.mpr fun _ _ => rfl
      have hnothing : faults [] r.entries = [] := List.filterMap_eq_nil_iff.mpr fun _ _ => rfl
      rw [heverything, hnothing]
      rfl
  | cons result results ih =>
      obtain ⟨id, status⟩ := result
      obtain ⟨hfirst, hrest⟩ := List.pairwise_cons.mp hascending
      have hlater : ∀ p ∈ results, id < p.1 := fun p hp => hfirst p.1 (List.mem_map_of_mem hp)
      rw [Registry.dropFailed]
      split
      · rename_i hgood
        obtain ⟨hkept, htold⟩ := faults_congr r.entries fun e _ => fault?_cons_good hlater hgood e
        rw [ih h hrest, hkept, htold]
      · rename_i hbad
        split
        · rename_i hnobody
          have hothers : ∀ e ∈ r.entries,
              fault? ((id, status) :: results) e = fault? results e := fun e he =>
            fault?_cons_other (by simpa using List.find?_eq_none.mp hnobody e he)
          obtain ⟨hkept, htold⟩ := faults_congr r.entries hothers
          rw [ih h hrest, hkept, htold]
        · rename_i entry hfound
          obtain ⟨hsame, before, after, hsplit, hearlier⟩ := List.find?_eq_some_iff_append.mp hfound
          have hsame : entry.id = id := by simpa using hsame
          have hsorted := h.entries
          rw [hsplit] at hsorted
          obtain ⟨hkept, htold⟩ := faults_first hsorted hsame hlater hbad
          have herased : (r.erase id).entries = before ++ after := by
            have hothers : ∀ e ∈ before ++ after, e.id ≠ id := by
              obtain ⟨-, hrest, horder⟩ := List.pairwise_append.mp hsorted
              intro e he
              rcases List.mem_append.mp he with he | he
              · exact hsame ▸ UInt32.ne_of_lt (horder e he entry List.mem_cons_self)
              · exact hsame ▸ (UInt32.ne_of_lt ((List.pairwise_cons.mp hrest).1 e he)).symm
            rw [erase, hsplit, List.filter_append, List.filter_cons_of_neg (by simp [hsame]),
              ← List.filter_append, List.filter_eq_self]
            exact fun e he => by simpa using hothers e he
          rw [ih (h.of_sublist (ids_erase r id)) hrest, herased, hsplit, hkept, htold]
          rfl

/-- What the listeners are told of a fault: each of them, in order, of each
that has failed. -/
def notices (r : Registry) (failed : List (Subscription × StatusCode)) : List TransferFailure :=
  failed.flatMap fun (s, status) => r.listeners.map fun name => ⟨name, s, status⟩

/-- **What a transfer drops, and who is told.**  An entry stays if no verdict
on it is bad; of each that goes every listener is told, in the order of the
ids. -/
theorem Ascending.transferCompleted (h : r.Ascending)
    (hascending : (results.map (·.1)).Pairwise (· < ·)) :
    r.transferCompleted results =
      ({ r with entries := r.entries.filter fun e => (fault? results e).isNone },
        r.notices (faults results r.entries)) := by
  rw [Registry.transferCompleted, h.dropFailed results hascending]
  rfl

/-! ## A verdict for every entry -/

/-- A result is found by its id, since no id has two. -/
theorem find?_result (hascending : (results.map (·.1)).Pairwise (· < ·))
    (hknown : (id, status) ∈ results) : results.find? (·.1 = id) = some (id, status) := by
  induction results with
  | nil => cases hknown
  | cons result results ih =>
      obtain ⟨hfirst, hrest⟩ := List.pairwise_cons.mp hascending
      rcases List.mem_cons.mp hknown with rfl | hknown
      · simp
      · have hlater := hfirst id (List.mem_map.mpr ⟨_, hknown, rfl⟩)
        rw [List.find?_cons_of_neg (by simpa using UInt32.ne_of_lt hlater)]
        exact ih hrest hknown

/-- The entries of which the verdict is good, as they were. -/
def kept (verdicts : List (Registration × StatusCode)) : List Registration :=
  (verdicts.filter (·.2.isGood)).map (·.1)

/-- The subscriptions of which it is not, with the verdict that says so. -/
def lost (verdicts : List (Registration × StatusCode)) : List (Subscription × StatusCode) :=
  (verdicts.filter (!·.2.isGood)).map fun (e, status) => (e.subscription, status)

/-- **One verdict, which is not good, on all that was asked for.**  Nothing
that was asked for stays, all else does, and the listeners are told of
everything that goes. -/
theorem Ascending.condemned (h : r.Ascending) {ids : List UInt32}
    (hascending : ids.Pairwise (· < ·)) (hbad : ¬ status.isGood) :
    r.transferCompleted (ids.map (·, status)) =
      ({ r with entries := r.entries.filter (·.id ∉ ids) },
        r.notices ((r.entries.filter (·.id ∈ ids)).map fun e => (e.subscription, status))) := by
  have hsame : (ids.map (·, status)).map (·.1) = ids := by
    rw [List.map_map]
    exact List.map_id ids
  have hverdict : ∀ e : Registration, fault? (ids.map (·, status)) e =
      if e.id ∈ ids then some status else none := by
    intro e
    split
    · rename_i hasked
      rw [fault?, find?_result (hsame.symm ▸ hascending) (List.mem_map.mpr ⟨_, hasked, rfl⟩)]
      simp [hbad]
    · rename_i hother
      have hnone : (ids.map (·, status)).find? (·.1 = e.id) = none := by
        simpa using fun id hid (hsame : id = e.id) => hother (hsame ▸ hid)
      simp [fault?, hnone]
  rw [h.transferCompleted (hsame.symm ▸ hascending)]
  generalize ids.map (·, status) = results at hverdict
  have hstay : r.entries.filter (fun e => (fault? results e).isNone) =
      r.entries.filter (·.id ∉ ids) := by
    refine List.filter_congr fun e _ => ?_
    rw [hverdict]
    split <;> simp [*]
  have hgo : faults results r.entries =
      (r.entries.filter (·.id ∈ ids)).map fun e => (e.subscription, status) := by
    rw [faults, ← List.filterMap_eq_map, List.filterMap_filter]
    refine List.filterMap_congr fun e _ => ?_
    rw [hverdict]
    split <;> simp [*]
  rw [hstay, hgo]

/-- **One verdict, which is good, on all that was asked for.**  Everything
stays, and nobody is told anything. -/
theorem transferCompleted_good (r : Registry) (ids : List UInt32) (hgood : status.isGood) :
    r.transferCompleted (ids.map (·, status)) = (r, []) := by
  have hnothing : r.dropFailed (ids.map (·, status)) = (r, []) := by
    induction ids with
    | nil => rfl
    | cons id ids ih =>
        rw [List.map_cons, Registry.dropFailed, if_pos hgood]
        exact ih
  rw [Registry.transferCompleted, hnothing]
  rfl

end Registry

end OpcSession
