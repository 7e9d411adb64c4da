/-!
# Frequency caches

A cache holds a bounded number of values by name, each with the number of its uses, the time of its
last use and the time it came in. Time is counted in milliseconds and given to every operation that
needs it.

**What counts as a use.** Coming in is the first use. A hit and a value written over another are
uses; a look is none, and neither is a sweep.

**Who has to go.** When a new name finds the cache full, the entry with the fewest uses leaves, and
among equals the one whose last use is longest ago. Should two entries share both, the one that
came in first leaves.

**Expiry.** A cache with a basic duration drops in a sweep what is older than that duration times
the number of its uses, so what is used more stays longer. Uses beyond `2 ^ 32 - 1` add nothing to
the factor, and the product stays within the longest duration there is.
-/

namespace GraphSession

universe u

/-- What is kept under a name: the value, and what has to be known to decide how long it stays. -/
structure CacheEntry (α : Type u) where
  value : α
  /-- The number of uses, from one up to `2 ^ 64 - 1`. -/
  hits : Nat
  lastHit : Nat
  createdAt : Nat
  deriving DecidableEq

namespace CacheEntry

variable {α : Type u}

/-- The entry of a name that comes in: one use, and all times are now. -/
def fresh (value : α) (now : Nat) : CacheEntry α := ⟨value, 1, now, now⟩

/-- The number of uses that is not counted beyond. -/
def mostHits : Nat := Nat.pow 2 64 - 1

/-- One more use. -/
def touch (e : CacheEntry α) (now : Nat) : CacheEntry α :=
  { e with hits := min (e.hits + 1) mostHits, lastHit := now }

/-- The longest duration there is, in milliseconds. -/
def longest : Nat := Nat.pow 2 64 * 1000 - 1

/-- How long the entry may stay. -/
def lifetime (basic : Nat) (e : CacheEntry α) : Nat :=
  min (basic * min e.hits (Nat.pow 2 32 - 1)) longest

/-- The entry has been in the cache for longer than it may stay. -/
def isExpired (basic now : Nat) (e : CacheEntry α) : Bool := e.lifetime basic < now - e.createdAt

/-- Whether `a` has to go before `b`. -/
def goesBefore (a b : CacheEntry α) : Bool :=
  a.hits < b.hits || (a.hits == b.hits && a.lastHit < b.lastHit)

end CacheEntry

/-- A bounded cache of values by name. -/
structure FrequencyCache (α : Type u) where
  capacity : Nat
  /-- The basic duration, for a cache whose entries expire. -/
  basic : Option Nat
  entries : List (String × CacheEntry α)
  capacity_pos : 0 < capacity

namespace FrequencyCache

variable {α : Type u}

/-- An empty cache, which can hold at least one entry. -/
def ofCapacity (n : Nat) (basic : Option Nat) : FrequencyCache α :=
  ⟨max n 1, basic, [], by omega⟩

/-- How many names are cached. -/
def size (c : FrequencyCache α) : Nat := c.entries.length

/-- Nothing is cached. -/
def isEmpty (c : FrequencyCache α) : Bool := c.entries.isEmpty

/-- The entry of a name; the first one counts, and there is never a second. -/
def entry? (c : FrequencyCache α) (k : String) : Option (CacheEntry α) := c.entries.lookup k

/-- What is cached under a name. A look is no use. -/
def get? (c : FrequencyCache α) (k : String) : Option α := (c.entry? k).map CacheEntry.value

/-- The number of uses of a name, which asking does not change. -/
def hitCount? (c : FrequencyCache α) (k : String) : Option Nat := (c.entry? k).map CacheEntry.hits

/-- Whether something is cached under a name, which again is no use. -/
def contains (c : FrequencyCache α) (k : String) : Bool := (c.entry? k).isSome

/-- Changes the entry of a name. -/
def modify (c : FrequencyCache α) (k : String) (f : CacheEntry α → CacheEntry α) :
    FrequencyCache α :=
  { c with entries := c.entries.map fun e ↦ if e.1 = k then (e.1, f e.2) else e }

/-- Counts a use, of a name that is cached. -/
def hit (c : FrequencyCache α) (k : String) (now : Nat) : FrequencyCache α :=
  c.modify k fun e ↦ e.touch now

/-- Drops the entry of a name, with its uses and its times. -/
def remove (c : FrequencyCache α) (k : String) : FrequencyCache α :=
  { c with entries := c.entries.filter fun e ↦ e.1 ≠ k }

/-- Drops all entries. -/
def clear (c : FrequencyCache α) : FrequencyCache α := { c with entries := [] }

/-- The name that has to go first. -/
def victim? : List (String × CacheEntry α) → Option String
  | [] => none
  | (k, e) :: rest =>
    some (rest.foldl (fun w x ↦ if x.2.goesBefore w.2 then x else w) (k, e)).1

/-- Without the entry that has to go first, if the cache is full. -/
def makeRoom (c : FrequencyCache α) : FrequencyCache α :=
  if c.capacity ≤ c.size then
    match victim? c.entries with
    | none => c
    | some k => c.remove k
  else c

/-- Writes a value. -/
def put (c : FrequencyCache α) (k : String) (value : α) (now : Nat) : FrequencyCache α :=
  if c.contains k then c.modify k fun e ↦ { e with value := value }.touch now
  else { c with entries := c.makeRoom.entries ++ [(k, .fresh value now)] }

/-- Whether an entry has outlived its time. -/
def isStale (c : FrequencyCache α) (now : Nat) (e : CacheEntry α) : Bool :=
  match c.basic with
  | none => false
  | some basic => e.isExpired basic now

/-- Keeps the entries whose name is wanted and whose time is not up. -/
def sweep (c : FrequencyCache α) (keep : String → Bool) (now : Nat) : FrequencyCache α :=
  { c with entries := c.entries.filter fun e ↦ keep e.1 && !c.isStale now e.2 }

end FrequencyCache

end GraphSession
