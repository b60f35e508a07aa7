import Mathlib.Data.List.Basic
import OpcSession.Cache.Store
import OpcSession.Proofs.Lists

/-!
# The entries of a store in the order of their use

A store keeps its entries by key and, apart from them, the keys by the stamps
of their latest use.  The two are about the same entries: those can be listed
in the order of their use, so that the recency is that list over again.  Every
operation on a store is one on this list.

* `Store.InOrder` — the entries of a store, the least recently used first;
* `InOrder.find?`, `InOrder.size` — what is read off a store;
* `InOrder.dropWhere`, `InOrder.evict`, `InOrder.insert`, `InOrder.touch` — what
  the operations make of the list.
-/

namespace OpcSession.Cache

variable {V : Type}

namespace Store

variable {s : Store V} {xs : List (Key × Entry V)}

/-- The entries of a store, the least recently used first.  Everything that is
shown of a store is shown of such a list, which has neither two tables nor
stamps that could fail to agree. -/
structure InOrder (s : Store V) (xs : List (Key × Entry V)) : Prop where
  /-- They are the entries of the store, in some order. -/
  entries : xs.Perm s.entries
  /-- The recency is their stamps and keys, one for one. -/
  recency : s.recency = xs.map fun x => (x.2.stamp, x.1)
  keys : (xs.map (·.1)).Nodup
  /-- Later in the list is stamped later. -/
  stamps : xs.Pairwise fun x y => x.2.stamp < y.2.stamp
  /-- The stamp that comes next is beyond all of them. -/
  fresh : ∀ x ∈ xs, x.2.stamp ≤ s.lastStamp

/-- An empty store has no entries in any order, and so in this. -/
theorem inOrder_nil (hentries : s.entries = []) (hrecency : s.recency = []) : s.InOrder [] where
  entries := by rw [hentries]
  recency := hrecency
  keys := .nil
  stamps := .nil
  fresh := by simp

theorem InOrder.size (h : s.InOrder xs) : s.size = xs.length := h.entries.length_eq.symm

/-- What is kept under a key is found in the list; no key is there twice. -/
theorem InOrder.find? (h : s.InOrder xs) (key : Key) :
    s.find? key = (xs.find? (·.1 = key)).map (·.2) := by
  rw [Store.find?, find?_key_perm h.entries h.keys]

/-- What is found under a key is one of the entries, listed under that key. -/
theorem InOrder.mem_of_find? (h : s.InOrder xs) {key : Key} {e : Entry V}
    (hfound : s.find? key = some e) : (key, e) ∈ xs := by
  rw [h.find?] at hfound
  obtain ⟨⟨_, _⟩, hfirst, rfl⟩ := Option.map_eq_some_iff.mp hfound
  obtain ⟨hmem, rfl⟩ := (find?_key_eq_some_iff h.keys key _).mp hfirst
  exact hmem

/-- Without what is found under a key there is less, so putting it again needs
no room. -/
theorem InOrder.length_others_lt (h : s.InOrder xs) {key : Key} {e : Entry V}
    (hfound : s.find? key = some e) : (xs.filter (·.1 ≠ key)).length < xs.length :=
  List.length_filter_lt_length_iff_exists.mpr ⟨(key, e), h.mem_of_find? hfound, by simp⟩

/-- What is told of a store by recency is its entries in the order of their
use. -/
theorem InOrder.byRecency (h : s.InOrder xs) :
    s.byRecency = xs.map fun x => (x.1, x.2.value) := by
  rw [Store.byRecency, h.recency, List.filterMap_map, ← List.filterMap_eq_map]
  apply List.filterMap_congr
  intro x hx
  have hfound : s.find? x.1 = some x.2 := by
    rw [h.find?, (find?_key_eq_some_iff h.keys x.1 x).mpr ⟨hx, rfl⟩, Option.map_some]
  simp only [Function.comp_apply, hfound, Option.map_some]

/-- A stamp is given once, so an entry can be found by it. -/
theorem InOrder.eq_of_stamp (h : s.InOrder xs) {x y : Key × Entry V} (hx : x ∈ xs) (hy : y ∈ xs)
    (hsame : x.2.stamp = y.2.stamp) : x = y := by
  have hstamps : (xs.map (·.2.stamp)).Nodup := (List.pairwise_map.mpr h.stamps).imp Nat.ne_of_lt
  exact List.inj_on_of_nodup_map hstamps hx hy hsame

/-- To have dropped the stamps of some entries is to have dropped those
entries. -/
theorem InOrder.recency_filter (h : s.InOrder xs) (drop : Key × Entry V → Bool) :
    (s.recency.filter fun p => !(((s.entries.filter drop).map (·.2.stamp)).contains p.1)) =
      (xs.filter (!drop ·)).map fun x => (x.2.stamp, x.1) := by
  rw [h.recency, List.filter_map]
  congr 1
  apply List.filter_congr
  intro x hx
  have hgone : x.2.stamp ∈ (s.entries.filter drop).map (·.2.stamp) ↔ drop x = true := by
    constructor
    · intro hfound
      obtain ⟨y, hy, hsame⟩ := List.mem_map.mp hfound
      have ⟨hmem, hdropped⟩ := List.mem_filter.mp hy
      rwa [h.eq_of_stamp hx (h.entries.mem_iff.mpr hmem) hsame.symm]
    · intro hdropped
      exact List.mem_map.mpr ⟨x, List.mem_filter.mpr ⟨h.entries.mem_iff.mp hx, hdropped⟩, rfl⟩
  cases hd : drop x <;> simp [hd] at hgone ⊢ <;> simpa using hgone

/-- What is left of a list is in order as it was.  All that only drops entries
is a case of this. -/
theorem InOrder.sublist {ys : List (Key × Entry V)} (h : s.InOrder xs) (hsub : ys.Sublist xs)
    {s' : Store V} (hentries : ys.Perm s'.entries)
    (hrecency : s'.recency = ys.map fun x => (x.2.stamp, x.1))
    (hstamp : s.lastStamp ≤ s'.lastStamp) : s'.InOrder ys where
  entries := hentries
  recency := hrecency
  keys := h.keys.sublist (hsub.map _)
  stamps := h.stamps.sublist hsub
  fresh x hx := Nat.le_trans (h.fresh x (hsub.subset hx)) hstamp

/-- What is dropped is dropped from the list, and is as many as there were in
it. -/
theorem InOrder.dropWhere (h : s.InOrder xs) (drop : Key → Entry V → Bool) :
    (s.dropWhere drop).1 = (xs.filter fun x => drop x.1 x.2).length ∧
      (s.dropWhere drop).2.InOrder (xs.filter fun x => !drop x.1 x.2) := by
  have hparted : s.entries.partition (fun x => drop x.1 x.2) =
      (s.entries.filter fun x => drop x.1 x.2, s.entries.filter fun x => !drop x.1 x.2) := by
    rw [List.partition_eq_filter_filter]
    rfl
  constructor
  · rw [Store.dropWhere, hparted]
    exact (h.entries.filter _).length_eq.symm
  · refine h.sublist List.filter_sublist ?_ ?_ ?_
    · rw [Store.dropWhere, hparted]
      exact h.entries.filter _
    · rw [Store.dropWhere, hparted]
      exact h.recency_filter fun x => drop x.1 x.2
    · exact Nat.le_of_eq (by rw [Store.dropWhere, hparted])

/-- To drop the entry under a key is to leave it out of the list. -/
theorem InOrder.erase (h : s.InOrder xs) (key : Key) :
    (s.erase key).InOrder (xs.filter (·.1 ≠ key)) := by
  have hdropped := (h.dropWhere fun k _ => k = key).2
  simpa [Store.erase] using hdropped

theorem InOrder.clear (h : s.InOrder xs) : s.clear.InOrder [] :=
  h.sublist (List.nil_sublist xs) .nil rfl (Nat.le_refl _)

/-- What was stamped last comes last, if its key is not listed yet. -/
theorem InOrder.snoc {ys : List (Key × Entry V)} {x : Key × Entry V} (h : s.InOrder ys)
    (hnew : ∀ y ∈ ys, y.1 ≠ x.1) (hstamp : s.lastStamp < x.2.stamp) {s' : Store V}
    (hentries : (ys ++ [x]).Perm s'.entries)
    (hrecency : s'.recency = s.recency ++ [(x.2.stamp, x.1)])
    (hlast : s'.lastStamp = x.2.stamp) : s'.InOrder (ys ++ [x]) where
  entries := hentries
  recency := by rw [hrecency, h.recency, List.map_append, List.map_singleton]
  keys := by
    rw [List.map_append, List.map_singleton, List.nodup_append]
    refine ⟨h.keys, by simp, ?_⟩
    intro k hk k' hk'
    obtain ⟨y, hy, rfl⟩ := List.mem_map.mp hk
    rw [List.mem_singleton.mp hk']
    exact hnew y hy
  stamps := by
    rw [List.pairwise_append]
    refine ⟨h.stamps, List.pairwise_singleton _ _, ?_⟩
    intro y hy z hz
    rw [List.mem_singleton.mp hz]
    have := h.fresh y hy
    omega
  fresh y hy := by
    rcases List.mem_append.mp hy with hy | hy
    · have := h.fresh y hy
      omega
    · exact Nat.le_of_eq (by rw [List.mem_singleton.mp hy, hlast])

/-- What is put under a key is the latest use, whether the key was there or
not. -/
theorem InOrder.insert (h : s.InOrder xs) (key : Key) (value : V) (now : Duration) :
    (s.insert key value now).InOrder
      (xs.filter (·.1 ≠ key) ++ [(key, ⟨value, now, s.lastStamp + 1⟩)]) := by
  have herased := h.erase key
  have hstamp : (s.erase key).lastStamp = s.lastStamp := rfl
  refine herased.snoc ?_ ?_ ?_ rfl rfl
  · intro y hy
    simpa using (List.mem_filter.mp hy).2
  · simp only [hstamp]
    omega
  · exact herased.entries.append_right _

/-- The entry under a key stands at one place in the order, between those used
before it and those used after. -/
theorem InOrder.split (h : s.InOrder xs) {key : Key} {e : Entry V} (hfound : s.find? key = some e) :
    ∃ before after, xs = before ++ (key, e) :: after ∧
      (∀ x ∈ before, x.1 ≠ key) ∧ ∀ x ∈ after, x.1 ≠ key := by
  obtain ⟨before, after, rfl⟩ := List.append_of_mem (h.mem_of_find? hfound)
  have hkeys := h.keys
  rw [List.map_append, List.map_cons, List.nodup_append, List.nodup_cons] at hkeys
  refine ⟨before, after, rfl, ?_, ?_⟩
  · intro x hx hsame
    exact hkeys.2.2 _ (List.mem_map_of_mem hx) _ List.mem_cons_self hsame
  · intro x hx hsame
    exact hkeys.2.1.1 (List.mem_map.mpr ⟨x, hx, hsame⟩)

/-- One entry is stamped anew where it stands, and the others stay as they
are. -/
theorem map_restamp {before after : List (Key × Entry V)} {key : Key}
    (hfirst : ∀ x ∈ before, x.1 ≠ key) (hlast : ∀ x ∈ after, x.1 ≠ key)
    (e : Entry V) (stamp : Nat) :
    ((before ++ (key, e) :: after).map fun (k, x) =>
      if k = key then (k, { x with stamp := stamp }) else (k, x)) =
        before ++ (key, { e with stamp := stamp }) :: after := by
  have hsame : ∀ xs : List (Key × Entry V), (∀ x ∈ xs, x.1 ≠ key) →
      (xs.map fun (k, x) => if k = key then (k, { x with stamp := stamp }) else (k, x)) = xs := by
    intro xs hother
    refine (List.map_congr_left fun x hx => ?_).trans (List.map_id xs)
    exact if_neg (hother x hx)
  rw [List.map_append, List.map_cons, hsame before hfirst, hsame after hlast]
  simp

/-- To filter out the stamp of an entry is to filter out its key. -/
theorem InOrder.recency_erase (h : s.InOrder xs) {x : Key × Entry V} (hx : x ∈ xs) :
    s.recency.filter (·.1 ≠ x.2.stamp) =
      (xs.filter (·.1 ≠ x.1)).map fun x => (x.2.stamp, x.1) := by
  rw [h.recency, List.filter_map]
  congr 1
  apply List.filter_congr
  intro y hy
  have hsame : y.2.stamp = x.2.stamp ↔ y.1 = x.1 := by
    constructor
    · intro hstamp
      rw [h.eq_of_stamp hy hx hstamp]
    · intro hkey
      rw [List.inj_on_of_nodup_map h.keys hy hx hkey]
  simp [hsame]

/-- What is used becomes the latest use, as it is: neither its value nor its
age changes. -/
theorem InOrder.touch (h : s.InOrder xs) {key : Key} {e : Entry V} (hfound : s.find? key = some e) :
    (s.touch key).InOrder
      (xs.filter (·.1 ≠ key) ++ [(key, { e with stamp := s.lastStamp + 1 })]) := by
  have hrest := h.erase key
  obtain ⟨before, after, rfl, hfirst, hlast⟩ := h.split hfound
  have hmem : (key, e) ∈ before ++ (key, e) :: after :=
    List.mem_append_right _ List.mem_cons_self
  have hothers : (before ++ (key, e) :: after).filter (·.1 ≠ key) = before ++ after := by
    have hkept : ∀ ys : List (Key × Entry V), (∀ y ∈ ys, y.1 ≠ key) →
        ys.filter (·.1 ≠ key) = ys :=
      fun ys hother => List.filter_eq_self.mpr fun y hy => by simpa using hother y hy
    rw [List.filter_append, List.filter_cons_of_neg (by simp), hkept before hfirst,
      hkept after hlast]
  have hrecency := h.recency_erase hmem
  rw [hothers] at hrest hrecency ⊢
  refine hrest.snoc ?_ (Nat.lt_succ_self _) ?_ ?_ ?_
  · intro y hy
    rcases List.mem_append.mp hy with hy | hy
    · exact hfirst y hy
    · exact hlast y hy
  · have hmoved := h.entries.map fun (k, x) =>
      if k = key then (k, { x with stamp := s.lastStamp + 1 }) else (k, x)
    rw [map_restamp hfirst hlast] at hmoved
    rw [Store.touch, hfound, List.append_assoc]
    exact ((List.perm_append_singleton _ after).append_left before).trans hmoved
  · rw [Store.touch, hfound, hrest.recency]
    exact congrArg (· ++ _) hrecency
  · rw [Store.touch, hfound]

/-- To make room the least recently used are dropped, no more than there are
too many. -/
theorem InOrder.evict (h : s.InOrder xs) :
    s.evict.1 = min (xs.length + 1 - s.maxEntries) xs.length ∧
      s.evict.2.InOrder (xs.drop (xs.length + 1 - s.maxEntries)) := by
  have hvictims : (s.recency.take (s.size + 1 - s.maxEntries)).map (·.2) =
      (xs.take (xs.length + 1 - s.maxEntries)).map (·.1) := by
    rw [h.recency, h.size, ← List.map_take, List.map_map]
    rfl
  have hcount : (xs.take (xs.length + 1 - s.maxEntries)).length =
      min (xs.length + 1 - s.maxEntries) xs.length := List.length_take
  generalize hn : xs.length + 1 - s.maxEntries = n at hvictims hcount ⊢
  have hleft : xs.filter (fun x => !((xs.take n).map (·.1)).contains x.1) = xs.drop n := by
    have hkeys := h.keys
    conv at hkeys => rw [← List.take_append_drop n xs, List.map_append]
    have hapart := (List.nodup_append.mp hkeys).2.2
    conv => lhs; arg 2; rw [← List.take_append_drop n xs]
    rw [List.filter_append, List.filter_eq_nil_iff.mpr, List.filter_eq_self.mpr, List.nil_append]
    · intro x hx
      have hother : x.1 ∉ (xs.take n).map (·.1) := fun htaken =>
        hapart _ htaken _ (List.mem_map_of_mem hx) rfl
      simpa using hother
    · intro x hx
      have htaken : x.1 ∈ (xs.take n).map (·.1) := List.mem_map_of_mem hx
      simpa using htaken
  constructor
  · rw [Store.evict, hvictims, List.length_map, hcount]
  · refine h.sublist (List.drop_sublist n xs) ?_ ?_ (Nat.le_refl _)
    · rw [Store.evict, hvictims, ← hleft]
      exact h.entries.filter _
    · rw [Store.evict, h.size, hn, h.recency, List.map_drop]

end Store

end OpcSession.Cache
