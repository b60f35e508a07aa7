import OpcSession.AttributeId
import OpcSession.Duration
import OpcSession.NodeId.Basic

/-!
# The store of the cache

The store keeps values under a node and an attribute.  Every use of an
entry gives it a fresh stamp, and the *recency* lists the stamps in
ascending order with the keys they were given for: its head is the entry
that has not been used for the longest time.  An entry expires when
`expireAfter` has passed since it was written, however often it was read.

* `evict` makes room for one entry by dropping the least recently used;
* `purge` drops what has expired.
-/

namespace OpcSession.Cache

/-- What a value is kept under: a node, and one of its attributes. -/
abbrev Key := NodeId × AttributeId

/-- A value, when it was written, and the stamp of its latest use. -/
structure Entry (V : Type) where
  value : V
  /-- When it was put there, by which it expires. -/
  written : Duration
  /-- When it was used last, by a number that grows with each use. -/
  stamp : Nat
deriving Repr

/-- Entries by key, and keys by the stamp of their latest use.  Stamps are
drawn from a counter of 64 bits where they are kept, and from the natural
numbers here, which are the same for the first `2 ^ 64` uses. -/
structure Store (V : Type) where
  maxEntries : Nat
  /-- After what time an entry is too old. -/
  expireAfter : Duration
  /-- The entries, each under a key of its own, in no order that matters. -/
  entries : List (Key × Entry V) := []
  /-- The keys in the order of their latest use, with the stamps of it. -/
  recency : List (Nat × Key) := []
  /-- The stamp that was given last. -/
  lastStamp : Nat := 0
deriving Repr

namespace Store

variable {V : Type}

def size (s : Store V) : Nat := s.entries.length

/-- The entry under a key, whether it has expired or not. -/
def find? (s : Store V) (key : Key) : Option (Entry V) :=
  (s.entries.find? (·.1 = key)).map (·.2)

/-- Whether an entry was written too long ago: its time is over when it has
lasted as long as the bound. -/
def isExpired (s : Store V) (now : Duration) (e : Entry V) : Bool :=
  s.expireAfter ≤ now.since e.written

/-- Drops the entries of which `drop` holds, with their stamps; says how many
there were. -/
def dropWhere (s : Store V) (drop : Key → Entry V → Bool) : Nat × Store V :=
  let (gone, kept) := s.entries.partition fun (key, e) => drop key e
  let stamps := gone.map (·.2.stamp)
  (gone.length,
    { s with entries := kept, recency := s.recency.filter (!stamps.contains ·.1) })

/-- Drops the entry under a key, if there is one. -/
def erase (s : Store V) (key : Key) : Store V :=
  (s.dropWhere fun k _ => k = key).2

def clear (s : Store V) : Store V := { s with entries := [], recency := [] }

/-- Puts a value under a key, as the latest use, in place of what was
there. -/
def insert (s : Store V) (key : Key) (value : V) (now : Duration) : Store V :=
  let stamp := s.lastStamp + 1
  let s := s.erase key
  { s with
    entries := s.entries ++ [(key, ⟨value, now, stamp⟩)]
    recency := s.recency ++ [(stamp, key)]
    lastStamp := stamp }

/-- The entry under a key is used now: it gets the next stamp, which is
greater than all others. -/
def touch (s : Store V) (key : Key) : Store V :=
  match s.find? key with
  | none => s
  | some e =>
    let stamp := s.lastStamp + 1
    { s with
      entries := s.entries.map fun (k, x) =>
        if k = key then (k, { x with stamp := stamp }) else (k, x)
      recency := s.recency.filter (·.1 ≠ e.stamp) ++ [(stamp, key)]
      lastStamp := stamp }

/-- Drops the entries that have expired; says how many there were, since they
are counted. -/
def purge (s : Store V) (now : Duration) : Nat × Store V :=
  s.dropWhere fun _ e => s.isExpired now e

/-- Drops the least recently used entries until there is room for one more;
says how many there were. -/
def evict (s : Store V) : Nat × Store V :=
  let surplus := s.size + 1 - s.maxEntries
  let victims := (s.recency.take surplus).map (·.2)
  (victims.length,
    { s with
      entries := s.entries.filter (!victims.contains ·.1)
      recency := s.recency.drop surplus })

/-- Keys and values, the least recently used first, as they are put into a
store with other bounds. -/
def byRecency (s : Store V) : List (Key × V) :=
  s.recency.filterMap fun (_, key) => (s.find? key).map fun e => (key, e.value)

end Store

end OpcSession.Cache
