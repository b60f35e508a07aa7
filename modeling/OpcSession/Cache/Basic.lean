import OpcSession.Binary64.Basic
import OpcSession.Cache.Store
import OpcSession.Settings

/-!
# The attribute cache

A cache of attributes with a bound on its size and on the age of its
entries, and a count of what happened to it.  The attribute `Value`
changes by itself and is never kept.  A new entry for a full cache first
drops what has expired, and only then, if the cache is still full, the
least recently used entry.
-/

namespace OpcSession

/-- How often the cache was asked and what it dropped.  The counters are of 64
bits where they are kept; natural numbers stand for them here, and count the
same for the first `2 ^ 64` uses of the cache. -/
structure CacheStats where
  /-- Lookups that found an entry that had not expired, and so had a value at
  once. -/
  hits : Nat := 0
  /-- Lookups that found none, or asked for what is never kept. -/
  misses : Nat := 0
  /-- Entries that made room for others, being the least recently used. -/
  evictions : Nat := 0
  /-- Entries that were dropped because of their age, whenever that was
  noticed. -/
  expirations : Nat := 0
deriving DecidableEq, Repr, Inhabited

namespace CacheStats

/-- How many lookups there were, each of which is a hit or a miss. -/
def requests (s : CacheStats) : Nat := s.hits + s.misses

/-- The share of requests that were answered; all of none, so that an unused
cache looks like a good one. -/
def hitRate (s : CacheStats) : Binary64 :=
  if s.requests = 0 then .ofNat 1 else .ofQuotient s.hits s.requests

def hit (s : CacheStats) : CacheStats := { s with hits := s.hits + 1 }

def miss (s : CacheStats) : CacheStats := { s with misses := s.misses + 1 }

def evicted (s : CacheStats) (n : Nat) : CacheStats :=
  { s with evictions := s.evictions + n }

def expired (s : CacheStats) (n : Nat) : CacheStats :=
  { s with expirations := s.expirations + n }

end CacheStats

/-- A cache of attributes: a store with its bounds, and counts of how it was
used. -/
structure AttributeCache (V : Type) where
  /-- What is kept, and within which bounds. -/
  store : Cache.Store V
  /-- How the cache was used since it was made. -/
  stats : CacheStats := {}
deriving Repr

namespace AttributeCache

variable {V : Type}

/-- An empty cache with the bounds of its settings, which leave room for one
entry at least. -/
def ofSettings (c : CacheSettings) : AttributeCache V :=
  let c := c.validated
  { store := { maxEntries := c.maxEntries.toNat, expireAfter := c.expireAfter } }

def size (c : AttributeCache V) : Nat := c.store.size

/-- Looks an attribute up, which counts as a use of it.  An entry that has
expired is dropped and counts as a miss; values are never kept, so to look for
one always misses. -/
def get (c : AttributeCache V) (now : Duration) (node : NodeId) (a : AttributeId) :
    Option V × AttributeCache V :=
  if a = .value then (none, { c with stats := c.stats.miss })
  else
    match c.store.find? (node, a) with
    | none => (none, { c with stats := c.stats.miss })
    | some e =>
      if c.store.isExpired now e then
        (none, { store := c.store.erase (node, a), stats := (c.stats.expired 1).miss })
      else
        (some e.value, { store := c.store.touch (node, a), stats := c.stats.hit })

/-- Makes room for a key that is new to a full store: what has expired goes
first, and the least recently used only if that was not enough. -/
def makeRoom (c : AttributeCache V) (now : Duration) (key : Cache.Key) :
    AttributeCache V :=
  if (c.store.find? key).isNone ∧ c.store.maxEntries ≤ c.store.size then
    let (expired, store) := c.store.purge now
    let (evicted, store) := store.evict
    { store := store, stats := (c.stats.expired expired).evicted evicted }
  else c

/-- Puts a value under a key, in place of the one that was there, and begins
its time anew. -/
def insert (c : AttributeCache V) (now : Duration) (key : Cache.Key) (value : V) :
    AttributeCache V :=
  let c := c.makeRoom now key
  { c with store := c.store.insert key value now }

/-- Keeps the value of an attribute, unless it is the one attribute that is
never kept. -/
def put (c : AttributeCache V) (now : Duration) (node : NodeId) (a : AttributeId)
    (value : V) : AttributeCache V :=
  if a = .value then c else c.insert now (node, a) value

/-- Forgets all attributes of a node, which counts neither as an eviction nor
as an expiration. -/
def invalidate (c : AttributeCache V) (node : NodeId) : AttributeCache V :=
  { c with store := (c.store.dropWhere fun key _ => key.1 = node).2 }

/-- Forgets one attribute of a node and keeps the others. -/
def invalidateAttribute (c : AttributeCache V) (node : NodeId) (a : AttributeId) :
    AttributeCache V :=
  { c with store := c.store.erase (node, a) }

/-- Forgets everything, but not how the cache was used. -/
def invalidateAll (c : AttributeCache V) : AttributeCache V :=
  { c with store := c.store.clear }

/-- Changes the bounds: what has not expired under the old ones is put again,
the least recently used first, as if written now. -/
def rebuild (c : AttributeCache V) (now : Duration) (maxEntries : Nat)
    (expireAfter : Duration) : AttributeCache V :=
  let (expired, old) := c.store.purge now
  let fresh : AttributeCache V :=
    { store := { maxEntries := maxEntries, expireAfter := expireAfter }
      stats := c.stats.expired expired }
  old.byRecency.foldl (fun c (key, value) => c.insert now key value) fresh

def setMaxEntries (c : AttributeCache V) (now : Duration) (n : Nat) :
    AttributeCache V :=
  c.rebuild now (max n 1) c.store.expireAfter

def setExpireAfter (c : AttributeCache V) (now d : Duration) : AttributeCache V :=
  c.rebuild now c.store.maxEntries d

/-- The cache within the bounds of other settings: what has not expired and
fits is kept, and begins its time anew. -/
def reconfigure (c : AttributeCache V) (now : Duration) (s : CacheSettings) :
    AttributeCache V :=
  let s := s.validated
  c.rebuild now s.maxEntries.toNat s.expireAfter

def text (c : AttributeCache V) : String :=
  "AttributeCache \x7b len: " ++ toString c.size ++ ", max_entries: "
    ++ toString c.store.maxEntries ++ ", expire_after: " ++ c.store.expireAfter.text
    ++ " \x7d"

end AttributeCache

end OpcSession
