import OpcSession.Cache.Basic

/-!
# What a cache can give

A cache gives only what was put into it and has not been dropped since.  So it is
enough to know, for each use of a cache, what it may hold afterwards: no use but to
put a value adds one, and to forget an attribute leaves no value of it.

* `AttributeCache.Holds` — a value is kept under a key, whether or not it is too old;
* `AttributeCache.holds_get`, `AttributeCache.holds_put`,
  `AttributeCache.holds_invalidateAttribute` — what each use leaves;
* `AttributeCache.holds_rebuild` — what other bounds leave.
-/

namespace OpcSession

variable {V : Type} {key key' : Cache.Key} {v : V}

namespace Cache.Store

/-- A value is kept under a key, whether or not it is too old to be given. -/
def Holds (s : Store V) (key : Key) (v : V) : Prop :=
  ∃ e : Entry V, (key, e) ∈ s.entries ∧ e.value = v

variable {s : Store V}

theorem holds_of_find? {e : Entry V} (hfound : s.find? key = some e) : s.Holds key e.value := by
  obtain ⟨x, hfirst, rfl⟩ := Option.map_eq_some_iff.mp hfound
  have hsame : x.1 = key := by simpa using List.find?_some hfirst
  exact ⟨x.2, hsame ▸ List.mem_of_find?_eq_some hfirst, rfl⟩

/-- Fewer entries hold fewer values; so nothing that only drops entries adds a
value. -/
theorem Holds.mono {s' : Store V} (h : s'.Holds key v)
    (hfewer : ∀ x ∈ s'.entries, x ∈ s.entries) : s.Holds key v := by
  obtain ⟨e, hkept, hvalue⟩ := h
  exact ⟨e, hfewer _ hkept, hvalue⟩

/-- Those entries are left that are not to be dropped. -/
theorem mem_dropWhere (drop : Key → Entry V → Bool) (x : Key × Entry V) :
    x ∈ (s.dropWhere drop).2.entries ↔ x ∈ s.entries ∧ drop x.1 x.2 = false := by
  simp [dropWhere, List.partition_eq_filter_filter]

theorem holds_dropWhere (drop : Key → Entry V → Bool) (h : (s.dropWhere drop).2.Holds key v) :
    s.Holds key v :=
  h.mono fun _ hkept => ((mem_dropWhere drop _).mp hkept).1

theorem holds_evict (h : s.evict.2.Holds key v) : s.Holds key v :=
  h.mono fun _ hkept => (List.mem_filter.mp hkept).1

/-- What is erased is not held any more, and nothing else is touched. -/
theorem holds_erase (h : (s.erase key).Holds key' v) : key' ≠ key ∧ s.Holds key' v := by
  obtain ⟨e, hkept, hvalue⟩ := h
  obtain ⟨hthere, hother⟩ := (mem_dropWhere _ _).mp hkept
  exact ⟨by simpa using hother, e, hthere, hvalue⟩

/-- To use an entry leaves its value as it is. -/
theorem holds_touch (h : (s.touch key).Holds key' v) : s.Holds key' v := by
  unfold touch at h
  split at h
  · exact h
  · obtain ⟨e, hkept, rfl⟩ := h
    obtain ⟨⟨k, entry⟩, hthere, hsame⟩ := List.mem_map.mp hkept
    dsimp only at hsame
    by_cases hused : k = key
    · rw [if_pos hused] at hsame
      cases hsame
      exact ⟨entry, hthere, rfl⟩
    · rw [if_neg hused] at hsame
      cases hsame
      exact ⟨e, hthere, rfl⟩

/-- After something was put, that is held under its key, and what was held
before under others. -/
theorem holds_insert {value : V} {now : Duration} (h : (s.insert key value now).Holds key' v) :
    (key' = key ∧ v = value) ∨ s.Holds key' v := by
  obtain ⟨e, hkept, rfl⟩ := h
  rcases List.mem_append.mp hkept with hkept | hnew
  · exact .inr (holds_erase ⟨e, hkept, rfl⟩).2
  · cases List.mem_singleton.mp hnew
    exact .inl ⟨rfl, rfl⟩

/-- What is drained in the order of use was held. -/
theorem holds_of_mem_byRecency {x : Key × V} (h : x ∈ s.byRecency) : s.Holds x.1 x.2 := by
  obtain ⟨⟨stamp, key⟩, -, hfound⟩ := List.mem_filterMap.mp h
  obtain ⟨e, hthere, rfl⟩ := Option.map_eq_some_iff.mp hfound
  exact holds_of_find? hthere

end Cache.Store

namespace AttributeCache

/-- A value is kept under a key, whether or not it is too old. -/
def Holds (c : AttributeCache V) (key : Cache.Key) (v : V) : Prop := c.store.Holds key v

variable {c : AttributeCache V} {now : Duration} {node : NodeId} {a : AttributeId} {value : V}

theorem holds_ofSettings (settings : CacheSettings) :
    ¬ (ofSettings settings : AttributeCache V).Holds key v := by
  rintro ⟨e, hkept, -⟩
  cases hkept

/-- **What is looked up was held**, and nothing is added by that.  An entry
that is too old is dropped when it is looked at. -/
theorem holds_get (c : AttributeCache V) (now : Duration) (node : NodeId) (a : AttributeId) :
    (∀ v ∈ (c.get now node a).1, c.Holds (node, a) v) ∧
      ∀ key v, (c.get now node a).2.Holds key v → c.Holds key v := by
  unfold get
  split
  · exact ⟨nofun, fun _ _ => id⟩
  · split
    · exact ⟨nofun, fun _ _ => id⟩
    · rename_i e hfound
      split
      · exact ⟨nofun, fun _ _ hheld => (Cache.Store.holds_erase hheld).2⟩
      · refine ⟨?_, fun _ _ => Cache.Store.holds_touch⟩
        rintro _ ⟨⟩
        exact Cache.Store.holds_of_find? hfound

/-- Values of nodes are not looked up, so a read of one always goes to the
server. -/
theorem not_value_of_get (hfound : v ∈ (c.get now node a).1) : a ≠ .value := by
  rintro rfl
  rw [get, if_pos rfl] at hfound
  cases hfound

/-- To make room for a key adds nothing; it drops what has expired, and then
what was not used for longest. -/
theorem holds_makeRoom (h : (c.makeRoom now key).Holds key' v) : c.Holds key' v := by
  unfold makeRoom at h
  split at h
  · exact Cache.Store.holds_dropWhere _ (Cache.Store.holds_evict h)
  · exact h

/-- After something was put into a cache, that is held under its key, and at
most what was held before. -/
theorem holds_insert (h : (c.insert now key' value).Holds key v) :
    (key = key' ∧ v = value) ∨ c.Holds key v :=
  (Cache.Store.holds_insert h).imp_right holds_makeRoom

/-- **A value that is put is held**, and no other is added.  The value of a
node is not even put. -/
theorem holds_put (h : (c.put now node a value).Holds key v) :
    (key = (node, a) ∧ v = value) ∨ c.Holds key v := by
  unfold put at h
  split at h
  · exact .inr h
  · exact holds_insert h

theorem holds_invalidate (h : (c.invalidate node).Holds key v) : c.Holds key v :=
  Cache.Store.holds_dropWhere (fun key _ => key.1 = node) h

/-- **Of an attribute that is forgotten no value is held**, whatever is held
of others. -/
theorem holds_invalidateAttribute (h : (c.invalidateAttribute node a).Holds key v) :
    key ≠ (node, a) ∧ c.Holds key v :=
  Cache.Store.holds_erase h

/-- What is held after several things were put was one of them, or was held
before. -/
theorem holds_foldl_insert {xs : List (Cache.Key × V)}
    (h : (xs.foldl (fun c x => c.insert now x.1 x.2) c).Holds key v) :
    (key, v) ∈ xs ∨ c.Holds key v := by
  induction xs generalizing c with
  | nil => exact .inr h
  | cons x xs ih =>
      rcases ih h with hlater | hheld
      · exact .inl (List.mem_cons_of_mem _ hlater)
      · rcases holds_insert hheld with ⟨rfl, rfl⟩ | hbefore
        · exact .inl List.mem_cons_self
        · exact .inr hbefore

/-- **Other bounds add nothing**: what is put again was held before. -/
theorem holds_rebuild {maxEntries : Nat} {expireAfter : Duration}
    (h : (c.rebuild now maxEntries expireAfter).Holds key v) : c.Holds key v := by
  rcases holds_foldl_insert h with hkept | ⟨e, hnone, -⟩
  · have hlive : (c.store.purge now).2.Holds key v := Cache.Store.holds_of_mem_byRecency hkept
    exact Cache.Store.holds_dropWhere _ hlive
  · cases hnone

end AttributeCache

end OpcSession
