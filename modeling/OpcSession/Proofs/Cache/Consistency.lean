import OpcSession.Proofs.Cache.Bounds

/-!
# Entries and recency are kept alike

A store keeps two tables that are changed one after the other: what is held by key, and the keys
by the stamps of their latest use.  A stamp that stood for nothing would make an eviction count
something that was not there, or spare something that was.  That does not come about: whatever is
done to a cache, under whichever times, a key stands under a stamp exactly where its entry has
that stamp.

* `Store.Consistent` — what the two tables have to do with each other, and their bounds;
* `Store.evictOneByOne` — entries are evicted one at a time; `InOrder.evictOneByOne` — which is
  to evict them at once;
* `Store.Kept` — a store in the order of use within its bounds, which each deed leaves so;
* `AttributeCache.store_consistent` — both tables agree after all deeds, so that evictions and
  draining are exact.
-/

namespace OpcSession

variable {V : Type}

namespace Cache.Store

variable {s s' : Store V} {xs ys : List (Key × Entry V)}

/-! ## Two tables -/

/-- What the two tables of a store have to do with each other, and their
bounds.  It is stated of the tables themselves, without a list in the order of
use. -/
structure Consistent (s : Store V) : Prop where
  /-- A key has one entry, so what is found under it is all there is. -/
  keys : (s.entries.map (·.1)).Nodup
  /-- A stamp is given once, and later uses have greater stamps; the first key
  in the recency is the one not used for longest. -/
  ascending : s.recency.Pairwise fun p q => p.1 < q.1
  /-- A key stands under the stamp of its entry, and under no other. -/
  listed_iff : ∀ stamp key,
    (stamp, key) ∈ s.recency ↔ ∃ e, s.find? key = some e ∧ e.stamp = stamp
  /-- No stamp is beyond the one that was given last. -/
  given : ∀ p ∈ s.recency, p.1 ≤ s.lastStamp
  /-- The value of a node is never kept. -/
  cacheable : ∀ x ∈ s.entries, x.1.2 ≠ .value
  /-- There is room for one entry at least. -/
  positive : 0 < s.maxEntries
  /-- There are no more entries than there is room for. -/
  bounded : s.size ≤ s.maxEntries

/-- The stamp that is given next is in use for nothing, so a use never takes
the place of another in the recency. -/
theorem Consistent.unused (h : s.Consistent) (key : Key) : (s.lastStamp + 1, key) ∉ s.recency :=
  fun hused => Nat.not_succ_le_self _ (h.given _ hused)

/-- A key is under a stamp in the recency where its entry has the stamp. -/
theorem InOrder.listed_iff (h : s.InOrder xs) (stamp : Nat) (key : Key) :
    (stamp, key) ∈ s.recency ↔ ∃ e, s.find? key = some e ∧ e.stamp = stamp := by
  rw [h.recency, List.mem_map, h.find?]
  constructor
  · rintro ⟨x, hx, hsame⟩
    cases hsame
    have hfound := (find?_key_eq_some_iff h.keys x.1 x).mpr ⟨hx, rfl⟩
    exact ⟨x.2, by rw [hfound, Option.map_some], rfl⟩
  · rintro ⟨e, hfound, rfl⟩
    obtain ⟨x, hfirst, rfl⟩ := Option.map_eq_some_iff.mp hfound
    obtain ⟨hx, rfl⟩ := (find?_key_eq_some_iff h.keys key x).mp hfirst
    exact ⟨x, hx, rfl⟩

/-! ## One at a time -/

/-- The first key in the recency and its entry are dropped, one from each
table. -/
def dropFirst (s : Store V) (key : Key) : Store V :=
  { s with entries := s.entries.filter (·.1 ≠ key), recency := s.recency.tail }

/-- The least recently used entry is dropped as long as there is no room for
one more; says how often that was. -/
def evictOneByOne (s : Store V) : Nat × Store V :=
  if s.maxEntries ≤ s.size then
    match _ : s.recency with
    | [] => (0, s)
    | (_, key) :: _ =>
      let (n, s) := (s.dropFirst key).evictOneByOne
      (n + 1, s)
  else (0, s)
termination_by s.recency.length
decreasing_by simp_all [dropFirst]

/-- In the order of use that is to leave out the first entry. -/
theorem InOrder.dropFirst {x : Key × Entry V} (h : s.InOrder (x :: xs)) :
    (s.dropFirst x.1).InOrder xs := by
  have hothers : (x :: xs).filter (·.1 ≠ x.1) = xs := by
    have hkeys := h.keys
    rw [List.map_cons, List.nodup_cons] at hkeys
    rw [List.filter_cons_of_neg (by simp), List.filter_eq_self]
    intro y hy
    have hother : y.1 ≠ x.1 := fun hsame => hkeys.1 (hsame ▸ List.mem_map_of_mem hy)
    simpa using hother
  refine h.sublist (List.sublist_cons_self x xs) ?_ ?_ (Nat.le_refl _)
  · have hkept := h.entries.filter (·.1 ≠ x.1)
    rwa [hothers] at hkept
  · rw [Store.dropFirst, h.recency, List.map_cons, List.tail_cons]

/-- Where there is room nothing is evicted, and none is counted. -/
theorem evict_of_room (hroom : s.size < s.maxEntries) : s.evict = (0, s) := by
  have hnone : s.size + 1 - s.maxEntries = 0 := by omega
  simp [evict, hnone]

/-- Where nothing was used there is nothing to evict, whatever the bound. -/
theorem evict_of_empty (hempty : s.recency = []) : s.evict = (0, s) := by
  obtain ⟨maxEntries, expireAfter, entries, _, lastStamp⟩ := s
  subst hempty
  simp [evict]

/-- To evict is to drop the first key, and to evict then.  It takes that the
key had an entry, or dropping it would make no room. -/
theorem evict_of_full {stamp : Nat} {key : Key} {rest : List (Nat × Key)}
    (hfull : s.maxEntries ≤ s.size) (hfirst : s.recency = (stamp, key) :: rest)
    (hfewer : (s.dropFirst key).size + 1 = s.size) :
    s.evict = ((s.dropFirst key).evict.1 + 1, (s.dropFirst key).evict.2) := by
  have hsurplus : s.size + 1 - s.maxEntries =
      (s.dropFirst key).size + 1 - (s.dropFirst key).maxEntries + 1 := by
    have hsame : (s.dropFirst key).maxEntries = s.maxEntries := rfl
    omega
  unfold evict
  rw [hsurplus, hfirst]
  generalize (s.dropFirst key).size + 1 - (s.dropFirst key).maxEntries = n
  simp [dropFirst, hfirst, List.filter_filter, Bool.and_comm]

/-- **Entries are evicted at once as they are one at a time.**  Every key in
the recency has an entry, so each that is dropped counts. -/
theorem InOrder.evictOneByOne (h : s.InOrder xs) : s.evictOneByOne = s.evict := by
  induction xs generalizing s with
  | nil =>
      have hempty : s.recency = [] := h.recency
      rw [evict_of_empty hempty, Store.evictOneByOne]
      split
      · split
        · rfl
        · next hsome => simp [hempty] at hsome
      · rfl
  | cons x xs ih =>
      rw [Store.evictOneByOne]
      by_cases hfull : s.maxEntries ≤ s.size
      · have hfewer : (s.dropFirst x.1).size + 1 = s.size := by
          rw [h.dropFirst.size, h.size, List.length_cons]
        rw [if_pos hfull, evict_of_full hfull h.recency hfewer, ← ih h.dropFirst]
        split
        · next hnone => simp [h.recency] at hnone
        · next hfirst =>
            rw [h.recency] at hfirst
            cases hfirst
            rfl
      · rw [if_neg hfull, evict_of_room (Nat.lt_of_not_le hfull)]

/-! ## Within bounds -/

/-- A store in the order of use, within its bounds.  Each deed leaves a store
so, which is shown once for each kind. -/
structure Kept (s : Store V) (xs : List (Key × Entry V)) : Prop where
  /-- The list is that of the store, in the order of use. -/
  order : s.InOrder xs
  /-- The value of a node is never kept. -/
  cacheable : ∀ x ∈ xs, x.1.2 ≠ .value
  /-- There is room for one entry at least. -/
  positive : 0 < s.maxEntries
  /-- There are no more entries than there is room for. -/
  bounded : xs.length ≤ s.maxEntries
  /-- Every entry was stamped since the store was set up, so there were as
  many uses. -/
  stamped : xs.length ≤ s.lastStamp

/-- A store that is kept in order has two tables that agree. -/
theorem Kept.consistent (h : s.Kept xs) : s.Consistent where
  keys := (h.order.entries.map (·.1)).nodup_iff.mp h.order.keys
  ascending := by
    rw [h.order.recency, List.pairwise_map]
    exact h.order.stamps
  listed_iff := h.order.listed_iff
  given p hp := by
    rw [h.order.recency] at hp
    obtain ⟨x, hx, rfl⟩ := List.mem_map.mp hp
    exact h.order.fresh x hx
  cacheable x hx := h.cacheable x (h.order.entries.mem_iff.mpr hx)
  positive := h.positive
  bounded := by rw [h.order.size]; exact h.bounded

/-- Eviction and draining of a store come to exactly what there is too much
of, and to all that there is. -/
structure Exact (s : Store V) : Prop where
  /-- To evict one at a time comes to an end, with what is evicted at once. -/
  oneByOne : s.evictOneByOne = s.evict
  /-- As many entries are evicted as are too many for one more. -/
  surplus : s.evict.1 = s.size + 1 - s.maxEntries
  /-- What was counted as evicted is not there any more, and the rest is. -/
  evicted : s.evict.2.size + s.evict.1 = s.size
  /-- It is the least recently used that goes, and the others stay as they
  are. -/
  oldest : s.evict.2.byRecency = s.byRecency.drop s.evict.1
  /-- In the order of use every entry is listed, once. -/
  drained : s.byRecency.Perm (s.entries.map fun x => (x.1, x.2.value))

theorem Kept.exact (h : s.Kept xs) : s.Exact := by
  obtain ⟨hcount, horder⟩ := h.order.evict
  have hpositive := h.positive
  have hbounded := h.bounded
  have hsurplus : s.evict.1 = xs.length + 1 - s.maxEntries := by
    rw [hcount]
    omega
  refine ⟨h.order.evictOneByOne, ?_, ?_, ?_, ?_⟩
  · rw [hsurplus, h.order.size]
  · rw [horder.size, List.length_drop, hsurplus, h.order.size]
    omega
  · rw [horder.byRecency, h.order.byRecency, hsurplus, List.map_drop]
  · rw [h.order.byRecency]
    exact h.order.entries.map fun x => (x.1, x.2.value)

/-- A store within its bounds that follows another, with one stamp more at
most. -/
def Next (s s' : Store V) : Prop := ∃ ys, s'.Kept ys ∧ s'.lastStamp ≤ s.lastStamp + 1

/-- To do nothing keeps a store, and takes no stamp. -/
theorem Kept.next (h : s.Kept xs) : s.Next s := ⟨xs, h, Nat.le_succ _⟩

/-- What is left of a store is within its bounds, as the store was. -/
theorem Kept.sublist (h : s.Kept xs) (hsub : ys.Sublist xs) (horder : s'.InOrder ys)
    (hbound : s'.maxEntries = s.maxEntries) (hstamp : s'.lastStamp = s.lastStamp) : s'.Kept ys where
  order := horder
  cacheable x hx := h.cacheable x (hsub.subset hx)
  positive := hbound ▸ h.positive
  bounded := hbound ▸ Nat.le_trans hsub.length_le h.bounded
  stamped := hstamp ▸ Nat.le_trans hsub.length_le h.stamped

/-- One more entry is within the bounds where there is room for it. -/
theorem Kept.snoc {x : Key × Entry V} (h : s.Kept xs) (hsub : ys.Sublist xs)
    (hroom : ys.length < s.maxEntries) (hcacheable : x.1.2 ≠ .value)
    (horder : s'.InOrder (ys ++ [x])) (hbound : s'.maxEntries = s.maxEntries)
    (hstamp : s'.lastStamp = s.lastStamp + 1) : s'.Kept (ys ++ [x]) where
  order := horder
  cacheable y hy := by
    rcases List.mem_append.mp hy with hy | hy
    · exact h.cacheable y (hsub.subset hy)
    · rwa [List.mem_singleton.mp hy]
  positive := hbound ▸ h.positive
  bounded := by
    rw [hbound, List.length_append, List.length_singleton]
    exact hroom
  stamped := by
    have := hsub.length_le
    have := h.stamped
    rw [hstamp, List.length_append, List.length_singleton]
    omega

theorem Kept.dropWhere (h : s.Kept xs) (drop : Key → Entry V → Bool) :
    (s.dropWhere drop).2.Kept (xs.filter fun x => !drop x.1 x.2) :=
  h.sublist List.filter_sublist (h.order.dropWhere drop).2 rfl rfl

/-- To drop the entry under a key keeps a store. -/
theorem Kept.erase (h : s.Kept xs) (key : Key) : (s.erase key).Kept (xs.filter (·.1 ≠ key)) :=
  h.sublist List.filter_sublist (h.order.erase key) rfl rfl

/-- After an eviction there is room for one more, and what is left is kept. -/
theorem Kept.evict (h : s.Kept xs) :
    ∃ ys, s.evict.2.Kept ys ∧ ys.length < s.maxEntries := by
  have hpositive := h.positive
  refine ⟨_, h.sublist (List.drop_sublist _ xs) h.order.evict.2 rfl rfl, ?_⟩
  rw [List.length_drop]
  omega

/-- An entry that is used stays, with the others, and takes one stamp. -/
theorem Kept.touch {key : Key} {e : Entry V} (h : s.Kept xs) (hfound : s.find? key = some e) :
    s.Next (s.touch key) := by
  have hroom := Nat.lt_of_lt_of_le (h.order.length_others_lt hfound) h.bounded
  have hcacheable : key.2 ≠ .value := h.cacheable _ (h.order.mem_of_find? hfound)
  have hstamp : (s.touch key).lastStamp = s.lastStamp + 1 := by rw [Store.touch, hfound]
  have hbound : (s.touch key).maxEntries = s.maxEntries := by rw [Store.touch, hfound]
  exact ⟨_, h.snoc List.filter_sublist hroom hcacheable (h.order.touch hfound) hbound hstamp,
    Nat.le_of_eq hstamp⟩

/-- What is put has a stamp of its own, as what was under its key before
had. -/
theorem Kept.insert {key : Key} (h : s.Kept xs) (hcacheable : key.2 ≠ .value)
    (hroom : (xs.filter (·.1 ≠ key)).length < s.maxEntries) (value : V) (now : Duration) :
    ∃ ys, (s.insert key value now).Kept ys :=
  ⟨_, h.snoc List.filter_sublist hroom hcacheable (h.order.insert key value now) rfl rfl⟩

/-- An empty store is within any bounds there can be, with no stamp given. -/
theorem kept_empty (hpositive : 0 < s.maxEntries) (hentries : s.entries = [])
    (hrecency : s.recency = []) : s.Kept [] where
  order := inOrder_nil hentries hrecency
  cacheable := by simp
  positive := hpositive
  bounded := Nat.zero_le _
  stamped := Nat.zero_le _

end Cache.Store

open Cache

namespace AttributeCache

variable {c : AttributeCache V} {xs : List (Key × Entry V)}

/-- A look at the cache keeps its store, whether it finds something, nothing,
or what is too old. -/
theorem kept_get (h : c.store.Kept xs) (now : Duration) (node : NodeId) (a : AttributeId) :
    c.store.Next (c.get now node a).2.store := by
  unfold get
  split
  · exact h.next
  · split
    · exact h.next
    · next hfound =>
        split
        · exact ⟨_, h.erase (node, a), Nat.le_succ _⟩
        · exact h.touch hfound

/-- Where room has been made for a key there is room for it. -/
theorem kept_makeRoom (h : c.store.Kept xs) (now : Duration) (key : Key) :
    ∃ ys, (c.makeRoom now key).store.Kept ys ∧
      (ys.filter (·.1 ≠ key)).length < (c.makeRoom now key).store.maxEntries := by
  unfold makeRoom
  split
  · have hpurged : (c.store.purge now).2.Kept _ := h.dropWhere _
    obtain ⟨ys, hevicted, hroom⟩ := hpurged.evict
    exact ⟨ys, hevicted, Nat.lt_of_le_of_lt (List.length_filter_le _ ys) hroom⟩
  · next hspare =>
      refine ⟨xs, h, ?_⟩
      cases hfound : c.store.find? key with
      | none =>
          have hroom : ¬ c.store.maxEntries ≤ c.store.size := fun hfull =>
            hspare ⟨by rw [hfound]; rfl, hfull⟩
          rw [h.order.size] at hroom
          exact Nat.lt_of_le_of_lt (List.length_filter_le _ xs) (Nat.lt_of_not_le hroom)
      | some e => exact Nat.lt_of_lt_of_le (h.order.length_others_lt hfound) h.bounded

/-- Each entry that is put takes one stamp, and what is evicted for it takes
none. -/
theorem lastStamp_insert (c : AttributeCache V) (now : Duration) (key : Key) (value : V) :
    (c.insert now key value).store.lastStamp = c.store.lastStamp + 1 := by
  have hmade : (c.makeRoom now key).store.lastStamp = c.store.lastStamp := by
    unfold makeRoom
    split <;> rfl
  exact congrArg (· + 1) hmade

/-- An entry that is put is within the bounds, since room was made for it. -/
theorem kept_insert {key : Key} (h : c.store.Kept xs) (hcacheable : key.2 ≠ .value)
    (now : Duration) (value : V) : c.store.Next (c.insert now key value).store := by
  obtain ⟨ys, hmade, hroom⟩ := kept_makeRoom h now key
  obtain ⟨zs, hkept⟩ := hmade.insert hcacheable hroom value now
  exact ⟨zs, hkept, Nat.le_of_eq (lastStamp_insert c now key value)⟩

/-- To put an attribute keeps the store; the value of a node is not put at
all. -/
theorem kept_put (h : c.store.Kept xs) (now : Duration) (node : NodeId) (a : AttributeId)
    (value : V) : c.store.Next (c.put now node a value).store := by
  unfold put
  split
  · exact h.next
  · next hcacheable => exact kept_insert h hcacheable now value

/-- What is put one after the other is kept, and takes as many stamps. -/
theorem kept_refill {items : List (Key × V)} (h : c.store.Kept xs)
    (hcacheable : ∀ x ∈ items, x.1.2 ≠ .value) (now : Duration) :
    (∃ ys, (items.foldl (fun c x => c.insert now x.1 x.2) c).store.Kept ys) ∧
      (items.foldl (fun c x => c.insert now x.1 x.2) c).store.lastStamp =
        c.store.lastStamp + items.length := by
  induction items generalizing c xs with
  | nil => exact ⟨⟨xs, h⟩, rfl⟩
  | cons x items ih =>
      obtain ⟨ys, hinserted, -⟩ := kept_insert h (hcacheable x List.mem_cons_self) now x.2
      obtain ⟨hkept, hstamps⟩ := ih hinserted fun y hy => hcacheable y (List.mem_cons_of_mem x hy)
      refine ⟨hkept, ?_⟩
      rw [List.foldl_cons, hstamps, lastStamp_insert, List.length_cons]
      omega

/-- Under other bounds the store is kept, and the stamps begin anew: there are
no more of them than entries were put again. -/
theorem kept_rebuild (h : c.store.Kept xs) (now : Duration) {size : Nat} (hpositive : 0 < size)
    (age : Duration) :
    (∃ ys, (c.rebuild now size age).store.Kept ys) ∧
      (c.rebuild now size age).store.lastStamp ≤ c.store.lastStamp := by
  have hpurged : (c.store.purge now).2.Kept _ := h.dropWhere _
  have hlive := hpurged.order.byRecency
  have hcacheable : ∀ x ∈ (c.store.purge now).2.byRecency, x.1.2 ≠ .value := by
    intro x hx
    rw [hlive] at hx
    obtain ⟨y, hy, rfl⟩ := List.mem_map.mp hx
    exact hpurged.cacheable y hy
  have hfresh : ({ maxEntries := size, expireAfter := age } : Store V).Kept [] :=
    Store.kept_empty hpositive rfl rfl
  obtain ⟨hkept, hstamps⟩ := kept_refill
    (c := { store := { maxEntries := size, expireAfter := age }
            stats := c.stats.expired (c.store.purge now).1 }) hfresh hcacheable now
  refine ⟨hkept, ?_⟩
  calc (c.rebuild now size age).store.lastStamp
      = 0 + (c.store.purge now).2.byRecency.length := hstamps
    _ = _ := by rw [hlive, List.length_map, Nat.zero_add]
    _ ≤ c.store.lastStamp := hpurged.stamped

/-- **Each deed keeps the store, and takes one stamp at most.**  So the stamps
are of as many deeds at most, and no counter of them runs over. -/
theorem kept_perform (h : c.store.Kept xs) (now : Duration) (d : Deed V) :
    c.store.Next (c.perform now d).2.store := by
  cases d with
  | change b =>
      obtain ⟨⟨ys, hkept⟩, hstamps⟩ := kept_rebuild h now (b.size_pos h.positive) (b.age _)
      rw [perform, change_eq]
      exact ⟨ys, hkept, Nat.le_succ_of_le hstamps⟩
  | use u =>
      cases u with
      | put node a value => exact kept_put h now node a value
      | get node a => exact kept_get h now node a
      | invalidate node => exact ⟨_, h.dropWhere fun key _ => key.1 = node, Nat.le_succ _⟩
      | invalidateAttribute node a => exact ⟨_, h.erase (node, a), Nat.le_succ _⟩
      | invalidateAll =>
          exact ⟨[], h.sublist (List.nil_sublist xs) h.order.clear rfl rfl, Nat.le_succ _⟩
      | elapse d => exact h.next

/-- A cache after some deeds, each with the time that the clock shows then. -/
def reached (settings : CacheSettings) (deeds : List (Duration × Deed V)) : AttributeCache V :=
  deeds.foldl (fun c d => (c.perform d.1 d.2).2) (ofSettings settings)

/-- Whatever is done, the store is kept and takes no more stamps than there
are deeds. -/
theorem kept_reached (settings : CacheSettings) (deeds : List (Duration × Deed V)) :
    (∃ xs, (reached settings deeds).store.Kept xs) ∧
      (reached settings deeds).store.lastStamp ≤ deeds.length := by
  induction deeds using List.reverseRecOn with
  | nil =>
      have hpositive : 0 < settings.validated.maxEntries.toNat := by
        rw [settings.maxEntries_validated]
        omega
      exact ⟨⟨[], Store.kept_empty hpositive rfl rfl⟩, Nat.le_refl _⟩
  | append_singleton deeds d ih =>
      obtain ⟨⟨xs, hkept⟩, hstamps⟩ := ih
      obtain ⟨ys, hperformed, hfurther⟩ := kept_perform hkept d.1 d.2
      have hlast : reached settings (deeds ++ [d]) =
          ((reached settings deeds).perform d.1 d.2).2 := by
        rw [reached, List.foldl_append]
        rfl
      rw [hlast, List.length_append, List.length_singleton]
      exact ⟨⟨ys, hperformed⟩, Nat.le_trans hfurther (Nat.succ_le_succ hstamps)⟩

/-- **Entries and recency stay alike, and evictions and draining are exact.**
Whatever is done to a cache, its bounds changed included, and whichever times
its clock shows meanwhile: a key stands under a stamp exactly where its entry
has the stamp; the stamp that is given next is in use for nothing, and there
were no more stamps than deeds; no value of a node is held, and no more than
there is room for.  So to evict from the store, as it is or after what has
expired was dropped, comes to an end with just what is too much gone, and to
drain it gives every entry once. -/
theorem store_consistent (settings : CacheSettings) (deeds : List (Duration × Deed V)) :
    let s := (reached settings deeds).store
    s.Consistent ∧ (∀ key, (s.lastStamp + 1, key) ∉ s.recency) ∧ s.lastStamp ≤ deeds.length ∧
      s.Exact ∧ ∀ now, (s.purge now).2.Consistent ∧ (s.purge now).2.Exact := by
  intro s
  obtain ⟨⟨xs, hkept⟩, hstamps⟩ := kept_reached settings deeds
  refine ⟨hkept.consistent, hkept.consistent.unused, hstamps, hkept.exact, fun now => ?_⟩
  have hpurged : (s.purge now).2.Kept _ := hkept.dropWhere _
  exact ⟨hpurged.consistent, hpurged.exact⟩

end AttributeCache

end OpcSession
