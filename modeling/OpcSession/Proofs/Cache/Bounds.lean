import Mathlib.Data.List.Induction
import OpcSession.Proofs.Cache.Uses

/-!
# A cache under other bounds

The bounds of a cache can be changed while it is in use.  What has not expired under the old
bounds is put again into an empty store, the least recently used first and as if it were
written now, and the store makes room as it always does.  In the list in the order of use this
comes to a cut: the end of the list stays, as much of it as the new bound lets, and what is in
front of it is evicted one by one.

This needs an age that is not zero.  Under an age of zero what was put a moment ago has
expired, and to make room for one entry drops all that were put again before it.

* `Change`, `Deed` — a change of the bounds, and all that can be done to a cache;
* `UseList.rebuild` — every item is put again; `UseList.rebound` — the end of the list;
* `UseList.rebuild_eq` — the two are the same;
* `AttributeCache.Agrees.perform` — whatever is done, cache and list agree;
* `AttributeCache.rebound_keeps_latest` — what a cache holds under other bounds.
-/

namespace OpcSession

variable {V : Type}

namespace Cache

/-- A change of the bounds of a cache, in one of the three ways that there
are. -/
inductive Change
  /-- It may hold so many entries, of which there has to be room for one. -/
  | maxEntries (n : Nat)
  | expireAfter (d : Duration)
  /-- Both, and both are checked as they are when a cache is made. -/
  | settings (s : CacheSettings)

/-- How much may be held after a change: never less than one entry. -/
def Change.size (old : Nat) : Change → Nat
  | maxEntries n => max n 1
  | expireAfter _ => old
  | settings s => max s.maxEntries.toNat 1

/-- However the bounds are changed, there is room for one entry. -/
theorem Change.size_pos {old : Nat} (hpositive : 0 < old) (b : Change) : 0 < b.size old := by
  cases b with
  | expireAfter d => exact hpositive
  | _ => exact Nat.lt_of_lt_of_le Nat.zero_lt_one (Nat.le_max_right _ _)

/-- The age at which an entry expires after a change; a change of the size
leaves it as it was. -/
def Change.age (old : Duration) : Change → Duration
  | maxEntries _ => old
  | expireAfter d => d
  | settings s => .ofSecs s.expireAfterSecs.toNat

/-- Something that is done to a cache or with time, to change its bounds
included. -/
inductive Deed (V : Type)
  | use (u : Use V)
  | change (b : Change)

/-- The time after a deed.  Time goes by with uses; a change is made at one
moment. -/
def Deed.time (now : Duration) : Deed V → Duration
  | use u => u.time now
  | change _ => now

end Cache

open Cache

/-! ## The list -/

namespace UseList

/-- The items that have not expired, in the order of their use. -/
def live (l : UseList V) (now : Duration) : List (Item V) := l.items.filter (!l.expired now ·)

/-- An empty list under other bounds, with what has expired counted.  What was
evicted before stays counted as well. -/
def emptied (l : UseList V) (now : Duration) (size : Nat) (age : Duration) : UseList V where
  maxEntries := size
  expireAfter := age
  stats := l.stats.expired (l.items.length - (l.live now).length)

/-- Every item that has not expired is put again, as if it were written now,
the least recently used first. -/
def rebuild (l : UseList V) (now : Duration) (size : Nat) (age : Duration) : UseList V :=
  ((l.live now).map fun i => { i with written := now }).foldl (fun l i => l.insert now i)
    (l.emptied now size age)

/-- The most recently used of the items that have not expired, as many as
there is room for, in their order and as if they were written now.  What has
expired is counted as that, and what there is no room for as evicted. -/
def rebound (l : UseList V) (now : Duration) (size : Nat) (age : Duration) : UseList V where
  maxEntries := size
  expireAfter := age
  items := ((l.live now).drop ((l.live now).length - size)).map fun i => { i with written := now }
  stats := { l.stats with
    expirations := l.stats.expirations + (l.items.length - (l.live now).length)
    evictions := l.stats.evictions + ((l.live now).length - size) }

/-- The bounds of a list are changed as those of a cache are: by putting
everything again. -/
def change (l : UseList V) (now : Duration) (b : Change) : UseList V :=
  l.rebuild now (b.size l.maxEntries) (b.age l.expireAfter)

/-- What a deed makes of a list, and what it answers. -/
def perform (l : UseList V) (now : Duration) : Deed V → Option V × UseList V
  | .use u => l.apply now u
  | .change b => (none, l.change now b)

/-- The list after some deeds, with the time going on as they take it. -/
def after (l : UseList V) (now : Duration) : List (Deed V) → UseList V
  | [] => l
  | d :: ds => (l.perform now d).2.after (d.time now) ds

/-- What is seen of a list while things are done to it: the answers, the
sizes, and the counters. -/
def accounts (l : UseList V) (now : Duration) : List (Deed V) → List (Report V)
  | [] => []
  | d :: ds =>
    let (result, l) := l.perform now d
    ⟨result, l.items.length, l.stats⟩ :: l.accounts (d.time now) ds

/-- The list with other items, after some were evicted; neither its bounds nor
what else was counted has changed. -/
def holding (l : UseList V) (items : List (Item V)) (evicted : Nat) : UseList V :=
  { l with items := items, stats := l.stats.evicted evicted }

variable {now : Duration} {l : UseList V} {i : Item V}

theorem holding_holding (xs ys : List (Item V)) (m n : Nat) :
    (l.holding xs m).holding ys n = l.holding ys (m + n) := by
  simp only [holding, CacheStats.evicted, Nat.add_assoc]

/-- What was written now has not expired, unless that is so of everything. -/
theorem not_expired_now (hlasting : l.expireAfter ≠ .zero) (hwritten : i.written = now) :
    l.expired now i = false := by
  have hlater : ¬ now.nanos + l.expireAfter.nanos ≤ now.nanos := by
    have hpositive : l.expireAfter.nanos ≠ 0 := fun hzero => hlasting (congrArg Duration.mk hzero)
    omega
  rw [expired, hwritten, decide_eq_false_iff_not]
  exact hlater

/-- Among items that were all written now, one that is new displaces the first
where the list is full. -/
theorem insert_new_now (hlasting : l.expireAfter ≠ .zero) (hpositive : 0 < l.maxEntries)
    (hbounded : l.items.length ≤ l.maxEntries) (hwritten : ∀ x ∈ l.items, x.written = now)
    (hnew : ∀ x ∈ l.items, x.key ≠ i.key) :
    l.insert now i = l.holding ((l.items ++ [i]).drop (l.items.length + 1 - l.maxEntries))
      (l.items.length + 1 - l.maxEntries) := by
  have hunheld : l.items.any (·.key = i.key) = false := by simpa using hnew
  rw [insert, hunheld, if_neg Bool.false_ne_true]
  by_cases hroom : l.items.length < l.maxEntries
  · have hnone : l.items.length + 1 - l.maxEntries = 0 := by omega
    rw [if_pos hroom, hnone, List.drop_zero]
    rfl
  · have hone : l.items.length + 1 - l.maxEntries = 1 := by omega
    have hlive : l.items.filter (!l.expired now ·) = l.items :=
      List.filter_eq_self.mpr fun x hx => by simp [not_expired_now hlasting (hwritten x hx)]
    have hsome : l.items ≠ [] := fun hnil => by
      rw [hnil] at hroom
      exact hroom hpositive
    rw [if_neg hroom, squeeze, hlive, if_neg hroom, hone, List.drop_one,
      List.tail_append_of_ne_nil hsome, Nat.sub_self]
    rfl

/-- **What is put one after the other into an empty list** is there as far as
there is room, the last of it, in the order in which it was put. -/
theorem foldl_insert_now {xs : List (Item V)} (hlasting : l.expireAfter ≠ .zero)
    (hpositive : 0 < l.maxEntries) (hempty : l.items = []) (hwritten : ∀ x ∈ xs, x.written = now)
    (hkeys : (xs.map (·.key)).Nodup) :
    xs.foldl (fun l i => l.insert now i) l =
      l.holding (xs.drop (xs.length - l.maxEntries)) (xs.length - l.maxEntries) := by
  induction xs using List.reverseRecOn with
  | nil =>
      rw [List.foldl_nil, List.drop_nil, ← hempty, hempty, List.length_nil, Nat.zero_sub]
      exact congrArg (fun items => { l with items := items }) hempty
  | append_singleton xs x ih =>
      rw [List.map_append, List.map_singleton, List.nodup_append] at hkeys
      have hbefore := ih (fun y hy => hwritten y (List.mem_append_left _ hy)) hkeys.1
      generalize hsurplus : xs.length - l.maxEntries = k at hbefore
      have hwithin : xs.drop k ⊆ xs := (List.drop_sublist _ xs).subset
      have hheld : (xs.drop k).length = xs.length - k := List.length_drop
      have hstep : (l.holding (xs.drop k) k).insert now x = (l.holding (xs.drop k) k).holding
          ((xs.drop k ++ [x]).drop ((xs.drop k).length + 1 - l.maxEntries))
          ((xs.drop k).length + 1 - l.maxEntries) := by
        refine insert_new_now hlasting hpositive ?_ ?_ ?_
        · show (xs.drop k).length ≤ l.maxEntries
          omega
        · exact fun y hy => hwritten y (List.mem_append_left _ (hwithin hy))
        · exact fun y hy => hkeys.2.2 _ (List.mem_map_of_mem (hwithin hy)) _ (by simp)
      have hmore : k + ((xs.drop k).length + 1 - l.maxEntries) =
          (xs ++ [x]).length - l.maxEntries := by
        rw [hheld, List.length_append, List.length_singleton]
        omega
      rw [List.foldl_append, hbefore, List.foldl_cons, List.foldl_nil, hstep, holding_holding,
        ← List.drop_append_of_le_length (by omega), List.drop_drop, hmore]

/-- **To put everything again is to cut the list.**  Each item that is put
finds room, or takes that of the first; so the end of the list is what
stays. -/
theorem rebuild_eq {size : Nat} {age : Duration} (hpositive : 0 < size) (hlasting : age ≠ .zero)
    (hkeys : (l.items.map (·.key)).Nodup) : l.rebuild now size age = l.rebound now size age := by
  have hkept : ((l.live now).map (·.key)).Nodup := hkeys.sublist (List.filter_sublist.map _)
  rw [rebuild, foldl_insert_now hlasting hpositive rfl]
  · rw [rebound, List.length_map, List.map_drop]
    rfl
  · simp
  · rw [List.map_map]
    exact hkept

end UseList

/-! ## The cache and the list -/

namespace AttributeCache

/-- The bounds of a cache are changed, in one of the three ways that there
are. -/
def change (c : AttributeCache V) (now : Duration) : Change → AttributeCache V
  | .maxEntries n => c.setMaxEntries now n
  | .expireAfter d => c.setExpireAfter now d
  | .settings s => c.reconfigure now s

/-- What a deed makes of a cache, and what it answers. -/
def perform (c : AttributeCache V) (now : Duration) : Deed V → Option V × AttributeCache V
  | .use u => c.apply now u
  | .change b => (none, c.change now b)

/-- The cache after some deeds, with the time going on as they take it. -/
def after (c : AttributeCache V) (now : Duration) : List (Deed V) → AttributeCache V
  | [] => c
  | d :: ds => (c.perform now d).2.after (d.time now) ds

/-- What is seen of a cache while things are done to it, for comparison with a
list. -/
def accounts (c : AttributeCache V) (now : Duration) : List (Deed V) → List (Report V)
  | [] => []
  | d :: ds =>
    let (result, c) := c.perform now d
    ⟨result, c.size, c.stats⟩ :: c.accounts (d.time now) ds

variable {now : Duration} {c : AttributeCache V} {l : UseList V} {xs : List (Key × Entry V)}

/-- A change is to put everything again under the bounds that follow from it
and from those before. -/
theorem change_eq (c : AttributeCache V) (now : Duration) (b : Change) :
    c.change now b = c.rebuild now (b.size c.store.maxEntries) (b.age c.store.expireAfter) := by
  cases b with
  | settings s =>
      rw [change, reconfigure, s.maxEntries_validated, s.expireAfter_validated]
      rfl
  | _ => rfl

/-- What is put one after the other into both leaves both the same. -/
theorem Agrees.refill (h : Agrees now c l xs) (items : List (Item V))
    (hwritten : ∀ i ∈ items, i.written = now) :
    ∃ ys, Agrees now ((items.map fun i => (i.key, i.value)).foldl
      (fun c x => c.insert now x.1 x.2) c) (items.foldl (fun l i => l.insert now i) l) ys := by
  induction items generalizing c l xs with
  | nil => exact ⟨xs, h⟩
  | cons i items ih =>
      obtain ⟨ys, hkept⟩ := h.keep i.key i.value
      have hsame : (⟨i.key, i.value, now⟩ : Item V) = i := by
        rw [← hwritten i List.mem_cons_self]
      rw [hsame] at hkept
      exact ih hkept fun j hj => hwritten j (List.mem_cons_of_mem _ hj)

/-- **To put everything again makes the same of both.**  Cache and list begin
empty under the same bounds, and each item is put into both. -/
theorem Agrees.rebuild (h : Agrees now c l xs) {size : Nat} (hpositive : 0 < size)
    (age : Duration) :
    ∃ ys, Agrees now (c.rebuild now size age) (l.rebuild now size age) ys := by
  obtain ⟨hexpirations, hpurged⟩ := h.purge
  have hempty : Agrees now { store := { maxEntries := size, expireAfter := age }
                             stats := c.stats.expired (c.store.purge now).1 }
      (l.emptied now size age) [] := {
    order := Store.inOrder_nil rfl rfl
    items := rfl
    maxEntries := rfl
    expireAfter := rfl
    stats := by rw [hexpirations, ← h.stats]; rfl
    past := by simp
    positive := hpositive
    bounded := Nat.zero_le _ }
  have hcontents : (c.store.purge now).2.byRecency =
      ((l.live now).map fun i => { i with written := now }).map fun i => (i.key, i.value) := by
    have hitems : l.live now = _ := hpurged.items
    rw [hpurged.order.byRecency, hitems, List.map_map, List.map_map]
    rfl
  obtain ⟨ys, hrefilled⟩ :=
    hempty.refill ((l.live now).map fun i => { i with written := now }) (by simp)
  rw [← hcontents] at hrefilled
  exact ⟨ys, hrefilled⟩

/-- A change of the bounds makes the same of both, whichever of the three it
is. -/
theorem Agrees.change (h : Agrees now c l xs) (b : Change) :
    ∃ ys, Agrees now (c.change now b) (l.change now b) ys := by
  rw [change_eq, ← h.maxEntries, ← h.expireAfter]
  exact h.rebuild (b.size_pos h.positive) _

/-- **Whatever is done makes the same of both, and they answer it alike.** -/
theorem Agrees.perform (h : Agrees now c l xs) (d : Deed V) :
    (c.perform now d).1 = (l.perform now d).1 ∧
      ∃ ys, Agrees (d.time now) (c.perform now d).2 (l.perform now d).2 ys := by
  cases d with
  | use u => exact h.apply u
  | change b => exact ⟨rfl, h.change b⟩

/-- After any deeds cache and list agree, by induction on the deeds. -/
theorem Agrees.after (h : Agrees now c l xs) (ds : List (Deed V)) :
    ∃ ys, Agrees (ds.foldl Deed.time now) (c.after now ds) (l.after now ds) ys := by
  induction ds generalizing now c l xs with
  | nil => exact ⟨xs, h⟩
  | cons d ds ih =>
      obtain ⟨-, ys, hperformed⟩ := h.perform d
      exact ih hperformed

/-- What agrees is seen to be the same, whatever is done to it from then
on. -/
theorem Agrees.accounts (h : Agrees now c l xs) (ds : List (Deed V)) :
    c.accounts now ds = l.accounts now ds := by
  induction ds generalizing now c l xs with
  | nil => rfl
  | cons d ds ih =>
      obtain ⟨hresult, ys, hperformed⟩ := h.perform d
      rw [AttributeCache.accounts, UseList.accounts]
      simp only [hresult, hperformed.size, ← hperformed.stats, ih hperformed]

/-- **What a cache holds under other bounds.**  Whatever has been done to a
cache before, where entries do not expire at once under the new bounds it
holds the most recently used of what has not expired under the old ones, as
many as there is room for, with their values, in the order of their use and as
if they were written now; what has expired is counted as that, and what there
was no room for as evicted.  It is seen to hold that, and to give up the same,
in all that is done to it later. -/
theorem rebound_keeps_latest (settings : CacheSettings) (start : Duration)
    (deeds : List (Deed V)) (b : Change)
    (hlasting : b.age ((ofSettings settings : AttributeCache V).after start deeds).store.expireAfter
      ≠ .zero) :
    let now := deeds.foldl Deed.time start
    let c : AttributeCache V := (ofSettings settings).after start deeds
    let l := (UseList.ofSettings settings).after start deeds
    let l' := l.rebound now (b.size l.maxEntries) (b.age l.expireAfter)
    (∃ xs, Agrees now c l xs) ∧ (∃ ys, Agrees now (c.change now b) l' ys) ∧
      (c.change now b).size = min (l.live now).length (b.size l.maxEntries) ∧
      ∀ later, (c.change now b).accounts now later = l'.accounts now later := by
  intro now c l l'
  obtain ⟨xs, hbefore⟩ := (agrees_ofSettings settings start).after deeds
  have hkeys : (l.items.map (·.key)).Nodup := by
    rw [show l.items = _ from hbefore.items, List.map_map]
    exact hbefore.order.keys
  obtain ⟨ys, hchanged⟩ := hbefore.change b
  rw [← hbefore.expireAfter] at hlasting
  rw [UseList.change, UseList.rebuild_eq (b.size_pos hbefore.positive) hlasting hkeys] at hchanged
  refine ⟨⟨xs, hbefore⟩, ⟨ys, hchanged⟩, ?_, hchanged.accounts⟩
  have hsize : (c.change now b).size =
      (l.live now).length - ((l.live now).length - b.size l.maxEntries) := by
    rw [show (c.change now b).size = _ from hchanged.size, UseList.rebound, List.length_map,
      List.length_drop]
  omega

/-- Room for four entries, each for a hundred seconds. -/
def roomForFour : CacheSettings := { maxEntries := 4, expireAfterSecs := 100 }

/-- Four names, the first of which expires before there is room for two only,
and the second of which is used once more. -/
def fourNames : List (Deed Nat) :=
  [.use (.put ⟨0, .numeric 1⟩ .displayName 1), .use (.elapse (.ofSecs 60)),
    .use (.put ⟨0, .numeric 2⟩ .displayName 2), .use (.put ⟨0, .numeric 3⟩ .displayName 3),
    .use (.put ⟨0, .numeric 4⟩ .displayName 4), .use (.get ⟨0, .numeric 2⟩ .displayName),
    .use (.elapse (.ofSecs 50))]

/-- The two names that were used last, as if they were written now. -/
def twoNames : UseList Nat where
  maxEntries := 2
  expireAfter := .ofSecs 100
  items := [⟨(⟨0, .numeric 4⟩, .displayName), 4, .ofSecs 110⟩,
    ⟨(⟨0, .numeric 2⟩, .displayName), 2, .ofSecs 110⟩]
  stats := { hits := 1, evictions := 1, expirations := 1 }

/-- One has expired, one is evicted, and the two that were used last stay. -/
theorem rebound_keeps_latest_names :
    let c : AttributeCache Nat := (ofSettings roomForFour).after .zero fourNames
    Change.age c.store.expireAfter (.maxEntries 2) ≠ .zero ∧
      ∃ ys, Agrees (.ofSecs 110) (c.change (.ofSecs 110) (.maxEntries 2)) twoNames ys := by
  have hlasting : Change.age
      ((ofSettings roomForFour : AttributeCache Nat).after .zero fourNames).store.expireAfter
        (.maxEntries 2) ≠ .zero := by decide +kernel
  have htime : fourNames.foldl Deed.time .zero = .ofSecs 110 := by decide +kernel
  have hlaw := (rebound_keeps_latest roomForFour .zero fourNames (.maxEntries 2) hlasting).2.1
  generalize hheld : (UseList.ofSettings roomForFour : UseList Nat).after .zero fourNames =
    l at hlaw
  have htwo : l.rebound (.ofSecs 110) (Change.size l.maxEntries (.maxEntries 2))
      (Change.age l.expireAfter (.maxEntries 2)) = twoNames := by
    rw [← hheld]
    decide +kernel
  rw [htime, htwo] at hlaw
  exact ⟨hlasting, hlaw⟩

end AttributeCache

end OpcSession
