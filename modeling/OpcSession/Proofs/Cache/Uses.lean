import OpcSession.Cache.Basic
import OpcSession.Proofs.Cache.Order

/-!
# The cache as a list in the order of use

To its users a cache is a list of what it holds: a key, a value and the time at
which that was written, the least recently used first.  A look at something that
is held and has not expired moves it to the end; something new is put at the
end, and if the list is full then what has expired leaves it, and the first item
as well if that was not enough.  There are no stamps in this list, and nothing
that could disagree with it.

* `UseList` — the list and its operations, said without the store;
* `AttributeCache.Agrees` — a cache and a list that hold the same;
* `AttributeCache.kept_as_list` — whatever is done to them, they answer alike.
-/

namespace OpcSession

variable {V : Type}

namespace Cache

/-- A value that is held under a key, and when it was written. -/
structure Item (V : Type) where
  /-- The node and the attribute that the item is of. -/
  key : Key
  value : V
  written : Duration
deriving DecidableEq

/-- An entry of a store without its stamp, which only serves to find the order
of use. -/
def Item.ofEntry (x : Key × Entry V) : Item V := ⟨x.1, x.2.value, x.2.written⟩

/-- Something that is done to a cache, or the passing of time.  These are all
the ways in which a caller can deal with one while its bounds stay the
same. -/
inductive Use (V : Type)
  /-- A value of an attribute is put. -/
  | put (node : NodeId) (a : AttributeId) (value : V)
  | get (node : NodeId) (a : AttributeId)
  /-- Everything of a node is forgotten. -/
  | invalidate (node : NodeId)
  /-- One attribute of a node is forgotten. -/
  | invalidateAttribute (node : NodeId) (a : AttributeId)
  /-- Everything is forgotten, without being counted. -/
  | invalidateAll
  | elapse (d : Duration)

/-- The time after a use, which changes only where time goes by. -/
def Use.time (now : Duration) : Use V → Duration
  | elapse d => now + d
  | _ => now

/-- What can be seen after a use: the value that was looked up, how much is
held and what was counted. -/
structure Report (V : Type) where
  /-- What was answered, if anything was asked. -/
  result : Option V
  size : Nat
  stats : CacheStats

end Cache

open Cache

/-! ## The list -/

/-- What is held, the least recently used first, with the bounds on it and the
counters. -/
structure UseList (V : Type) where
  /-- How many items there is room for. -/
  maxEntries : Nat
  /-- How long an item lasts after it was written. -/
  expireAfter : Duration
  /-- What is held, in the order of use. -/
  items : List (Item V) := []
  stats : CacheStats := {}
deriving DecidableEq

namespace UseList

/-- An empty list with the bounds of some settings, and room for one item at
least. -/
def ofSettings (s : CacheSettings) : UseList V where
  maxEntries := max s.maxEntries.toNat 1
  expireAfter := .ofSecs s.expireAfterSecs.toNat

/-- Whether an item was written at least `expireAfter` ago; how often it was
looked at since does not matter. -/
def expired (l : UseList V) (now : Duration) (i : Item V) : Bool :=
  i.written + l.expireAfter ≤ now

/-- The items under other keys, in their order. -/
def others (l : UseList V) (key : Key) : List (Item V) := l.items.filter (·.key ≠ key)

/-- A look at an attribute.  What is held and has not expired is used by that;
what has expired is dropped, and counts as missing too. -/
def get (l : UseList V) (now : Duration) (node : NodeId) (a : AttributeId) :
    Option V × UseList V :=
  let misses := l.stats.misses + 1
  if a = .value then (none, { l with stats := { l.stats with misses := misses } })
  else
    match l.items.find? (·.key = (node, a)) with
    | none => (none, { l with stats := { l.stats with misses := misses } })
    | some i =>
      if l.expired now i then
        (none, { l with
          items := l.others (node, a)
          stats := { l.stats with misses := misses, expirations := l.stats.expirations + 1 } })
      else
        (some i.value, { l with
          items := l.others (node, a) ++ [i]
          stats := { l.stats with hits := l.stats.hits + 1 } })

/-- Something new in a full list: what has expired goes, and where that is
nothing the item goes that has not been used for the longest time. -/
def squeeze (l : UseList V) (now : Duration) (i : Item V) : UseList V :=
  let live := l.items.filter (!l.expired now ·)
  let expirations := l.stats.expirations + (l.items.length - live.length)
  if live.length < l.maxEntries then
    { l with items := live ++ [i], stats := { l.stats with expirations := expirations } }
  else
    { l with
      items := live.tail ++ [i]
      stats := { l.stats with expirations := expirations, evictions := l.stats.evictions + 1 } }

/-- A value of an attribute is to be held, as the latest use.  Only something
new to a full list makes others leave it. -/
def put (l : UseList V) (now : Duration) (node : NodeId) (a : AttributeId) (value : V) :
    UseList V :=
  let i : Item V := ⟨(node, a), value, now⟩
  if a = .value then l
  else if l.items.any (·.key = (node, a)) then { l with items := l.others (node, a) ++ [i] }
  else if l.items.length < l.maxEntries then { l with items := l.items ++ [i] }
  else l.squeeze now i

/-- Something is to be held under its key, whichever that is; other than
`put`, it does not ask which attribute it is. -/
def insert (l : UseList V) (now : Duration) (i : Item V) : UseList V :=
  if l.items.any (·.key = i.key) then { l with items := l.others i.key ++ [i] }
  else if l.items.length < l.maxEntries then { l with items := l.items ++ [i] }
  else l.squeeze now i

/-- What a use makes of a list, and what it answers. -/
def apply (l : UseList V) (now : Duration) : Use V → Option V × UseList V
  | .put node a value => (none, l.put now node a value)
  | .get node a => l.get now node a
  | .invalidate node => (none, { l with items := l.items.filter (·.key.1 ≠ node) })
  | .invalidateAttribute node a => (none, { l with items := l.others (node, a) })
  | .invalidateAll => (none, { l with items := [] })
  | .elapse _ => (none, l)

/-- What is seen of a list as it is used: after each use the answer, the size,
and the counters. -/
def reports (l : UseList V) (now : Duration) : List (Use V) → List (Report V)
  | [] => []
  | u :: us =>
    let (result, l) := l.apply now u
    ⟨result, l.items.length, l.stats⟩ :: l.reports (u.time now) us

end UseList

/-! ## The cache and the list -/

/-- Settings that ask for no room at all are given room for one entry. -/
theorem CacheSettings.maxEntries_validated (s : CacheSettings) :
    s.validated.maxEntries.toNat = max s.maxEntries.toNat 1 := by
  unfold validated
  by_cases hzero : s.maxEntries = 0
  · rw [if_pos hzero, hzero]
    rfl
  · have hpositive : 0 < s.maxEntries.toNat := Nat.pos_of_ne_zero fun hnone =>
      hzero (UInt64.toNat_inj.mp hnone)
    rw [if_neg hzero]
    omega

/-- The age in settings that were checked is the age that was set. -/
theorem CacheSettings.expireAfter_validated (s : CacheSettings) :
    s.validated.expireAfter = .ofSecs s.expireAfterSecs.toNat := by
  unfold validated
  split <;> rfl

/-- That so much time has passed can be asked of the difference or of the sum;
the two differ only for times to come. -/
theorem Duration.le_since_iff {written now : Duration} (hpast : written ≤ now) (d : Duration) :
    d ≤ now.since written ↔ written + d ≤ now := by
  have hpast : written.nanos ≤ now.nanos := hpast
  show d.nanos ≤ now.nanos - written.nanos ↔ written.nanos + d.nanos ≤ now.nanos
  omega

namespace AttributeCache

/-- What a use makes of a cache, and what it answers. -/
def apply (c : AttributeCache V) (now : Duration) : Use V → Option V × AttributeCache V
  | .put node a value => (none, c.put now node a value)
  | .get node a => c.get now node a
  | .invalidate node => (none, c.invalidate node)
  | .invalidateAttribute node a => (none, c.invalidateAttribute node a)
  | .invalidateAll => (none, c.invalidateAll)
  | .elapse _ => (none, c)

/-- What is seen of a cache as it is used, to be compared with a list. -/
def reports (c : AttributeCache V) (now : Duration) : List (Use V) → List (Report V)
  | [] => []
  | u :: us =>
    let (result, c) := c.apply now u
    ⟨result, c.size, c.stats⟩ :: c.reports (u.time now) us

/-- A cache and a list that hold the same in the same order of use. -/
structure Agrees (now : Duration) (c : AttributeCache V) (l : UseList V)
    (xs : List (Key × Entry V)) : Prop where
  /-- The entries of the store in the order of use. -/
  order : c.store.InOrder xs
  /-- The items are those entries without their stamps. -/
  items : l.items = xs.map .ofEntry
  maxEntries : l.maxEntries = c.store.maxEntries
  /-- In both things last as long. -/
  expireAfter : l.expireAfter = c.store.expireAfter
  stats : l.stats = c.stats
  past : ∀ x ∈ xs, x.2.written ≤ now
  /-- There is room for one item at least. -/
  positive : 0 < l.maxEntries
  /-- There are no more than there is room for. -/
  bounded : xs.length ≤ l.maxEntries

variable {now : Duration} {c : AttributeCache V} {l : UseList V} {xs : List (Key × Entry V)}

/-- A cache and a list that were just made are empty under the same bounds. -/
theorem agrees_ofSettings (s : CacheSettings) (now : Duration) :
    Agrees now (ofSettings s : AttributeCache V) (.ofSettings s) [] where
  order := Store.inOrder_nil rfl rfl
  items := rfl
  maxEntries := s.maxEntries_validated.symm
  expireAfter := s.expireAfter_validated.symm
  stats := rfl
  past := by simp
  positive := Nat.lt_of_lt_of_le Nat.zero_lt_one (Nat.le_max_right _ _)
  bounded := Nat.zero_le _

/-- Both hold as much, so both are full at the same time. -/
theorem Agrees.size (h : Agrees now c l xs) : c.size = l.items.length := by
  rw [AttributeCache.size, h.order.size, h.items, List.length_map]

/-- Both find the same under a key, or nothing. -/
theorem Agrees.find (h : Agrees now c l xs) (key : Key) :
    l.items.find? (·.key = key) = (xs.find? (·.1 = key)).map .ofEntry := by
  rw [h.items, List.find?_map]
  rfl

/-- Both hold the same under other keys, in the same order. -/
theorem Agrees.others (h : Agrees now c l xs) (key : Key) :
    l.others key = (xs.filter (·.1 ≠ key)).map .ofEntry := by
  rw [UseList.others, h.items, List.filter_map]
  rfl

/-- An entry has expired for both, or for none, at any time. -/
theorem Agrees.expired (h : Agrees now c l xs) {x : Key × Entry V} (hpast : x.2.written ≤ now) :
    c.store.isExpired now x.2 = l.expired now (.ofEntry x) := by
  rw [Store.isExpired, UseList.expired, decide_eq_decide, ← h.expireAfter]
  exact Duration.le_since_iff hpast _

/-- Both lose the same, and agree on what is left; it covers all that makes
entries fewer. -/
theorem Agrees.drop {c' : AttributeCache V} {l' : UseList V} {ys : List (Key × Entry V)}
    (h : Agrees now c l xs) (hsub : ys.Sublist xs) (horder : c'.store.InOrder ys)
    (hitems : l'.items = ys.map .ofEntry) (hstats : l'.stats = c'.stats)
    (hbounds : c'.store.maxEntries = c.store.maxEntries ∧ l'.maxEntries = l.maxEntries ∧
      c'.store.expireAfter = c.store.expireAfter ∧ l'.expireAfter = l.expireAfter) :
    Agrees now c' l' ys where
  order := horder
  items := hitems
  maxEntries := by rw [hbounds.2.1, h.maxEntries, hbounds.1]
  expireAfter := by rw [hbounds.2.2.2, h.expireAfter, hbounds.2.2.1]
  stats := hstats
  past x hx := h.past x (hsub.subset hx)
  positive := by rw [hbounds.2.1]; exact h.positive
  bounded := by rw [hbounds.2.1]; exact Nat.le_trans hsub.length_le h.bounded

/-- Both get the same at the end, where there is room for it. -/
theorem Agrees.append {c' : AttributeCache V} {l' : UseList V} {x : Key × Entry V}
    (h : Agrees now c l xs) (hroom : xs.length < l.maxEntries) (hpast : x.2.written ≤ now)
    (horder : c'.store.InOrder (xs ++ [x])) (hitems : l'.items = l.items ++ [.ofEntry x])
    (hstats : l'.stats = c'.stats)
    (hbounds : c'.store.maxEntries = c.store.maxEntries ∧ l'.maxEntries = l.maxEntries ∧
      c'.store.expireAfter = c.store.expireAfter ∧ l'.expireAfter = l.expireAfter) :
    Agrees now c' l' (xs ++ [x]) where
  order := horder
  items := by rw [hitems, h.items, List.map_append, List.map_singleton]
  maxEntries := by rw [hbounds.2.1, h.maxEntries, hbounds.1]
  expireAfter := by rw [hbounds.2.2.2, h.expireAfter, hbounds.2.2.1]
  stats := hstats
  past y hy := by
    rcases List.mem_append.mp hy with hy | hy
    · exact h.past y hy
    · rw [List.mem_singleton.mp hy]
      exact hpast
  positive := by rw [hbounds.2.1]; exact h.positive
  bounded := by
    rw [hbounds.2.1, List.length_append, List.length_singleton]
    omega

/-- **A look finds the same, and is the same use of both**: both move what was
found to the end, and both drop what has expired. -/
theorem Agrees.get (h : Agrees now c l xs) (node : NodeId) (a : AttributeId) :
    (c.get now node a).1 = (l.get now node a).1 ∧
      ∃ ys, Agrees now (c.get now node a).2 (l.get now node a).2 ys := by
  have hmissed : Agrees now { c with stats := c.stats.miss }
      { l with stats := { l.stats with misses := l.stats.misses + 1 } } xs :=
    h.drop (.refl _) h.order h.items (by rw [h.stats]; rfl) ⟨rfl, rfl, rfl, rfl⟩
  have hfound := h.order.find? (node, a)
  have hheld := h.find (node, a)
  unfold AttributeCache.get UseList.get
  by_cases hvalue : a = .value
  · rw [if_pos hvalue, if_pos hvalue]
    exact ⟨rfl, xs, hmissed⟩
  · rw [if_neg hvalue, if_neg hvalue]
    cases hlook : xs.find? (·.1 = (node, a)) with
    | none =>
        rw [hlook] at hfound hheld
        simp only [hfound, hheld, Option.map_none]
        exact ⟨trivial, xs, hmissed⟩
    | some x =>
        rw [hlook] at hfound hheld
        obtain ⟨hmem, hkey⟩ := (find?_key_eq_some_iff h.order.keys _ x).mp hlook
        have hpast := h.past x hmem
        simp only [hfound, hheld, Option.map_some, h.expired hpast]
        by_cases hold : l.expired now (.ofEntry x) = true
        · rw [if_pos hold, if_pos hold]
          refine ⟨rfl, _, h.drop List.filter_sublist (h.order.erase (node, a)) (h.others _) ?_
            ⟨rfl, rfl, rfl, rfl⟩⟩
          rw [h.stats]
          rfl
        · rw [if_neg hold, if_neg hold]
          have hothers : Agrees now { c with store := c.store.erase (node, a) }
              { l with items := l.others (node, a) } (xs.filter (·.1 ≠ (node, a))) :=
            h.drop List.filter_sublist (h.order.erase (node, a)) (h.others _) h.stats
              ⟨rfl, rfl, rfl, rfl⟩
          have hfewer : (xs.filter (·.1 ≠ (node, a))).length < l.maxEntries :=
            Nat.lt_of_lt_of_le (h.order.length_others_lt hfound) h.bounded
          refine ⟨rfl, _, hothers.append
            (x := ((node, a), { x.2 with stamp := c.store.lastStamp + 1 })) hfewer hpast
            (h.order.touch hfound) ?_ ?_ ?_⟩
          · rw [Item.ofEntry, hkey]
            rfl
          · rw [h.stats]
            rfl
          · rw [Store.touch, hfound]
            exact ⟨rfl, rfl, rfl, rfl⟩

/-- A store without the entries that have expired is a list without those
items, and as many are counted. -/
theorem Agrees.purge (h : Agrees now c l xs) :
    (c.store.purge now).1 = l.items.length - (l.items.filter (!l.expired now ·)).length ∧
      Agrees now { c with store := (c.store.purge now).2 }
        { l with items := l.items.filter (!l.expired now ·) }
        (xs.filter fun x => !c.store.isExpired now x.2) := by
  obtain ⟨hcount, horder⟩ := h.order.dropWhere fun _ e => c.store.isExpired now e
  have hlive : l.items.filter (!l.expired now ·) =
      (xs.filter fun x => !c.store.isExpired now x.2).map .ofEntry := by
    rw [h.items, List.filter_map]
    congr 1
    apply List.filter_congr
    intro x hx
    rw [h.expired (h.past x hx)]
    rfl
  constructor
  · rw [Store.purge, hcount, hlive, h.items, List.length_map, List.length_map]
    have hboth : xs.length = (xs.filter fun x => c.store.isExpired now x.2).length +
        (xs.filter fun x => !c.store.isExpired now x.2).length := by
      rw [← List.countP_eq_length_filter, ← List.countP_eq_length_filter,
        List.length_eq_countP_add_countP fun x => c.store.isExpired now x.2]
      simp
    omega
  · exact h.drop List.filter_sublist horder hlive h.stats ⟨rfl, rfl, rfl, rfl⟩

/-- What is held already is put at the end of both, and needs no room. -/
theorem Agrees.insert (h : Agrees now c l xs) (key : Key) (value : V)
    (hroom : (xs.filter (·.1 ≠ key)).length < l.maxEntries) :
    Agrees now { c with store := c.store.insert key value now }
      { l with items := l.others key ++ [⟨key, value, now⟩] }
      (xs.filter (·.1 ≠ key) ++ [(key, ⟨value, now, c.store.lastStamp + 1⟩)]) := by
  have hothers : Agrees now { c with store := c.store.erase key }
      { l with items := l.others key } (xs.filter (·.1 ≠ key)) :=
    h.drop List.filter_sublist (h.order.erase key) (h.others key) h.stats ⟨rfl, rfl, rfl, rfl⟩
  exact hothers.append hroom (Nat.le_refl _) (h.order.insert key value now) rfl h.stats
    ⟨rfl, rfl, rfl, rfl⟩

/-- A key that is not there is different from all that are, in the store as in
the list. -/
theorem Agrees.unheld (h : Agrees now c l xs) {key : Key} :
    c.store.find? key = none ↔ ∀ x ∈ xs, x.1 ≠ key := by
  rw [h.order.find?, Option.map_eq_none_iff, List.find?_eq_none]
  simp

/-- What is new is put behind all that is held, if there is room. -/
theorem Agrees.insert_new (h : Agrees now c l xs) {key : Key} (hnew : ∀ x ∈ xs, x.1 ≠ key)
    (value : V) (hroom : xs.length < l.maxEntries) :
    ∃ ys, Agrees now { c with store := c.store.insert key value now }
      { l with items := l.items ++ [⟨key, value, now⟩] } ys := by
  have hsame : xs.filter (·.1 ≠ key) = xs :=
    List.filter_eq_self.mpr fun x hx => by simpa using hnew x hx
  have hinserted := h.insert key value (hsame.symm ▸ hroom)
  rw [h.others, hsame, ← h.items] at hinserted
  exact ⟨_, hinserted⟩

/-- A full cache without the least recently used is the list without its first
item; one is counted. -/
theorem Agrees.evict (h : Agrees now c l xs) (hfull : l.maxEntries ≤ xs.length) :
    c.store.evict.1 = 1 ∧
      Agrees now { c with store := c.store.evict.2 } { l with items := l.items.tail } xs.tail := by
  obtain ⟨hcount, horder⟩ := h.order.evict
  have hbounded := h.bounded
  have hpositive := h.positive
  have hsurplus : xs.length + 1 - c.store.maxEntries = 1 := by
    rw [← h.maxEntries]
    omega
  rw [hsurplus] at hcount horder
  constructor
  · rw [hcount]
    omega
  · rw [List.drop_one] at horder
    refine h.drop (List.tail_sublist xs) horder ?_ h.stats ⟨rfl, rfl, rfl, rfl⟩
    simp only [h.items, List.map_tail]

/-- Where there is room nothing is evicted, and nothing is counted. -/
theorem Agrees.evict_none (h : Agrees now c l xs) (hroom : xs.length < l.maxEntries) :
    c.store.evict.1 = 0 ∧ Agrees now { c with store := c.store.evict.2 } l xs := by
  obtain ⟨hcount, horder⟩ := h.order.evict
  have hsurplus : xs.length + 1 - c.store.maxEntries = 0 := by
    rw [← h.maxEntries]
    omega
  rw [hsurplus] at hcount horder
  exact ⟨by rw [hcount, Nat.zero_min],
    h.drop (.refl _) (by rwa [List.drop_zero] at horder) h.items h.stats ⟨rfl, rfl, rfl, rfl⟩⟩

/-- The counters do not matter to what is held, so both may count the same
thing at any time. -/
theorem Agrees.count (h : Agrees now c l xs) (stats : CacheStats) :
    Agrees now { c with stats := stats } { l with stats := stats } xs :=
  h.drop (.refl _) h.order h.items rfl ⟨rfl, rfl, rfl, rfl⟩

/-- What is new to a full cache has room after what has expired is gone, and
where that is nothing after the least recently used is. -/
theorem Agrees.squeeze (h : Agrees now c l xs) {key : Key} (hnew : ∀ x ∈ xs, x.1 ≠ key)
    (hfull : l.maxEntries ≤ xs.length) (value : V) :
    ∃ ys, Agrees now (c.insert now key value) (l.squeeze now ⟨key, value, now⟩) ys := by
  obtain ⟨hexpirations, hpurged⟩ := h.purge
  have hstillNew : ∀ x ∈ xs.filter fun x => !c.store.isExpired now x.2, x.1 ≠ key :=
    fun x hx => hnew x (List.mem_filter.mp hx).1
  have hfullStore : (c.store.find? key).isNone ∧ c.store.maxEntries ≤ c.store.size := by
    rw [Option.isNone_iff_eq_none, h.unheld, ← h.maxEntries, h.order.size]
    exact ⟨hnew, hfull⟩
  have hinserted : c.insert now key value = {
      store := (c.store.purge now).2.evict.2.insert key value now
      stats := (c.stats.expired (c.store.purge now).1).evicted (c.store.purge now).2.evict.1 } := by
    rw [AttributeCache.insert, AttributeCache.makeRoom, if_pos hfullStore]
  have hlive := hpurged.size
  rw [AttributeCache.size, hpurged.order.size] at hlive
  rw [hinserted, UseList.squeeze, ← hexpirations]
  by_cases hroom : (l.items.filter (!l.expired now ·)).length < l.maxEntries
  · obtain ⟨hevictions, hkept⟩ := hpurged.evict_none (hlive ▸ hroom)
    have hcounted := hkept.count { l.stats with
      expirations := l.stats.expirations + (c.store.purge now).1 }
    rw [if_pos hroom, hevictions, ← h.stats]
    exact hcounted.insert_new hstillNew value (hlive ▸ hroom)
  · obtain ⟨hevictions, hkept⟩ := hpurged.evict (hlive ▸ Nat.le_of_not_lt hroom)
    have hcounted := hkept.count { l.stats with
      expirations := l.stats.expirations + (c.store.purge now).1
      evictions := l.stats.evictions + 1 }
    rw [if_neg hroom, hevictions, ← h.stats]
    refine hcounted.insert_new (fun x hx => hstillNew x (List.mem_of_mem_tail hx)) value ?_
    have hbounded := hpurged.bounded
    have hpositive := h.positive
    rw [List.length_tail]
    show _ < l.maxEntries
    change _ ≤ l.maxEntries at hbounded
    omega

/-- **What is to be held is the latest use of both**, and both make the same
room for it. -/
theorem Agrees.keep (h : Agrees now c l xs) (key : Key) (value : V) :
    ∃ ys, Agrees now (c.insert now key value) (l.insert now ⟨key, value, now⟩) ys := by
  -- Room is made only for a key that is new to a full store.
  have huntouched : ¬ ((c.store.find? key).isNone ∧ c.store.maxEntries ≤ c.store.size) →
      c.insert now key value = { c with store := c.store.insert key value now } := by
    intro hroom
    rw [AttributeCache.insert, AttributeCache.makeRoom, if_neg hroom]
  have hbounded := h.bounded
  have hheld : l.items.any (·.key = key) = true ↔ ∃ x ∈ xs, x.1 = key := by
    rw [h.items, List.any_map, List.any_eq_true]
    exact exists_congr fun x => and_congr_right fun _ => decide_eq_true_iff
  unfold UseList.insert
  by_cases hknown : ∃ x ∈ xs, x.1 = key
  · obtain ⟨x, hmem, hsame⟩ := hknown
    have hfound : ¬ c.store.find? key = none := fun hnone => h.unheld.mp hnone x hmem hsame
    have hfewer : (xs.filter (·.1 ≠ key)).length < xs.length :=
      List.length_filter_lt_length_iff_exists.mpr ⟨x, hmem, by simp [hsame]⟩
    rw [if_pos (hheld.mpr ⟨x, hmem, hsame⟩), huntouched fun hroom =>
      hfound (Option.isNone_iff_eq_none.mp hroom.1)]
    exact ⟨_, h.insert key value (by omega)⟩
  · have hnew : ∀ x ∈ xs, x.1 ≠ key := fun x hmem hsame => hknown ⟨x, hmem, hsame⟩
    have hsize : l.items.length = xs.length := by rw [h.items, List.length_map]
    rw [if_neg (hknown ∘ hheld.mp), hsize]
    by_cases hroom : xs.length < l.maxEntries
    · rw [if_pos hroom, huntouched fun hfull => by
        rw [h.order.size, ← h.maxEntries] at hfull
        omega]
      exact h.insert_new hnew value hroom
    · rw [if_neg hroom]
      exact h.squeeze hnew (Nat.le_of_not_lt hroom) value

/-- What is put is held by both, unless it is the attribute that is never
kept. -/
theorem Agrees.put (h : Agrees now c l xs) (node : NodeId) (a : AttributeId) (value : V) :
    ∃ ys, Agrees now (c.put now node a value) (l.put now node a value) ys := by
  unfold AttributeCache.put UseList.put
  by_cases hisValue : a = .value
  · rw [if_pos hisValue, if_pos hisValue]
    exact ⟨xs, h⟩
  · rw [if_neg hisValue, if_neg hisValue]
    exact h.keep (node, a) value

/-- **A use makes of both the same, and they answer it alike.**  Each kind of
use is one of the lemmas above. -/
theorem Agrees.apply (h : Agrees now c l xs) (u : Use V) :
    (c.apply now u).1 = (l.apply now u).1 ∧
      ∃ ys, Agrees (u.time now) (c.apply now u).2 (l.apply now u).2 ys := by
  cases u with
  | put node a value => exact ⟨rfl, h.put node a value⟩
  | get node a => exact h.get node a
  | invalidate node =>
      obtain ⟨-, horder⟩ := h.order.dropWhere fun key _ => key.1 = node
      refine ⟨rfl, _, h.drop List.filter_sublist horder ?_ h.stats ⟨rfl, rfl, rfl, rfl⟩⟩
      simp only [UseList.apply, h.items, List.filter_map]
      congr 1
      apply List.filter_congr
      intro x _
      simp only [Function.comp_apply, Item.ofEntry, ne_eq, decide_not]
      exact congrArg _ (decide_eq_decide.mpr .rfl)
  | invalidateAttribute node a =>
      exact ⟨rfl, _, h.drop List.filter_sublist (h.order.erase (node, a)) (h.others _) h.stats
        ⟨rfl, rfl, rfl, rfl⟩⟩
  | invalidateAll =>
      exact ⟨rfl, _, h.drop (List.nil_sublist xs) h.order.clear rfl h.stats ⟨rfl, rfl, rfl, rfl⟩⟩
  | elapse d =>
      refine ⟨rfl, xs, { h with past := fun x hx => ?_ }⟩
      have hpast : x.2.written.nanos ≤ now.nanos := h.past x hx
      show x.2.written.nanos ≤ now.nanos + d.nanos
      omega

/-- What agrees is seen to be the same from then on, however it is used; by
induction on the uses. -/
theorem Agrees.reports (h : Agrees now c l xs) (uses : List (Use V)) :
    c.reports now uses = l.reports now uses := by
  induction uses generalizing now c l xs with
  | nil => rfl
  | cons u us ih =>
      obtain ⟨hresult, ys, hafter⟩ := h.apply u
      rw [AttributeCache.reports, UseList.reports]
      simp only [hresult, hafter.size, ← hafter.stats, ih hafter]

/-- **A cache is a list in the order of use.**  Whatever its settings,
whatever is put, looked up and forgotten, and however time passes in between:
every look finds what it finds in the list, as much is held, and hits, misses,
evictions and expirations are counted as they are there. -/
theorem kept_as_list (settings : CacheSettings) (start : Duration) (uses : List (Use V)) :
    (ofSettings settings : AttributeCache V).reports start uses =
      (UseList.ofSettings settings).reports start uses :=
  (agrees_ofSettings settings start).reports uses

end AttributeCache

end OpcSession
