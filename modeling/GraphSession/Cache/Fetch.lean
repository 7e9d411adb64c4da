import GraphSession.Cache.Frequency

/-!
# Fetching through a cache

A read through a cache has two moments. At the first, a cached value is taken, which counts as a
use, and the read is over. Otherwise a fetch is under way, during which anything may happen to the
cache. At the second moment a fetched value is written and a failure leaves the cache alone: whether
the name was cached meanwhile makes no difference to the answer.
-/

namespace GraphSession

universe u

namespace FrequencyCache

variable {α ε : Type u}

/-- The first moment of a read: the cached value, if there is one. -/
def beginFetch (c : FrequencyCache α) (k : String) (now : Nat) : Option α × FrequencyCache α :=
  match c.get? k with
  | some a => (some a, c.hit k now)
  | none => (none, c)

/-- The second moment of a read that had to fetch. -/
def endFetch (c : FrequencyCache α) (k : String) (outcome : Except ε α) (now : Nat) :
    FrequencyCache α :=
  match outcome with
  | .ok a => c.put k a now
  | .error _ => c

/-- A read whose fetch takes no time. -/
def getOrFetch (c : FrequencyCache α) (k : String) (fetch : Except ε α) (now : Nat) :
    Except ε α × FrequencyCache α :=
  match c.beginFetch k now with
  | (some a, c') => (.ok a, c')
  | (none, c') => (fetch, c'.endFetch k fetch now)

end FrequencyCache

end GraphSession
