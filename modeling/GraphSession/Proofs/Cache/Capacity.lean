import Mathlib.Data.List.Basic
import GraphSession.Proofs.Cache.Course
import GraphSession.Proofs.Cache.Eviction
import GraphSession.Proofs.Schedule.Places

/-!
# Within capacity

A cache that began empty has at most one entry for each name and never more entries than its
capacity, and a value that was just written is there (`SharedCache.within_capacity`), whoever reads
and writes in between. What carries the bound is that a full cache has somebody to go: its capacity
is not zero, so it has entries, and the name that has to go is the name of one of them
(`mem_keys_of_victim?`).

**Readers share the cache.** A reader who finds nothing fetches, and many may do so at once, even
for the same name (`SharedCache.fetching`). Their fetches end in any order, if they end at all, and
what a reader does then does not ask what has become of the cache since: the name may have come in
meanwhile, or have come in and left again, or the cache may be full by now. So the readers are only
there to say whose fetch ends, and to the cache all of it is one history
(`SharedCache.exists_history`).
-/

namespace GraphSession

universe u

variable {α ε : Type u}

namespace FrequencyCache

variable {c : FrequencyCache α} {k : String} {now : Nat}

/-! ### Somebody has to go -/

/-- The name that has to go is one of those that are cached. -/
theorem mem_keys_of_victim? {es : List (String × CacheEntry α)} (h : victim? es = some k) :
    k ∈ Entries.keys es := by
  rw [victim?_eq_argmin] at h
  obtain ⟨e, he, rfl⟩ := Option.map_eq_some_iff.1 h
  exact List.mem_map_of_mem (List.argmin_mem he)

/-- Removing a name that is cached makes room. -/
theorem size_remove_lt (hk : k ∈ Entries.keys c.entries) : (c.remove k).size < c.size := by
  obtain ⟨e, he, rfl⟩ := List.mem_map.1 hk
  exact List.length_filter_lt_length_iff_exists.2 ⟨e, he, by simp⟩

/-- **Room is made for one more entry.** -/
theorem size_makeRoom_lt (h : c.size ≤ c.capacity) : c.makeRoom.size < c.capacity := by
  by_cases hfull : c.capacity ≤ c.size
  · obtain ⟨k, hvictim⟩ := exists_victim? hfull
    rw [makeRoom, if_pos hfull, hvictim]
    exact Nat.lt_of_lt_of_le (size_remove_lt (mem_keys_of_victim? hvictim)) h
  · rw [makeRoom_of_lt (by omega)]
    omega

/-! ### The bound -/

/-- Writing a value keeps a cache within its capacity, since room is made for a new name. -/
theorem size_put_le (h : c.size ≤ c.capacity) (value : α) :
    (c.put k value now).size ≤ c.capacity := by
  cases hk : c.entry? k with
  | some e =>
    rw [put_of_some hk, size_modify]
    exact h
  | none =>
    rw [size_put_of_none hk]
    exact size_makeRoom_lt h

/-- **A move keeps a cache within its capacity.** -/
theorem size_after_le (h : c.size ≤ c.capacity) (m : CacheMove α ε) :
    (m.after c now).size ≤ c.capacity := by
  cases m with
  | put k value => exact size_put_le h value
  | hit k =>
    rw [CacheMove.after, hit, size_modify]
    exact h
  | look k => exact h
  | beginFetch k =>
    rw [CacheMove.after, beginFetch_snd, hit, size_modify]
    exact h
  | endFetch k outcome =>
    cases outcome with
    | error e => exact h
    | ok value => exact size_put_le h value
  | remove k | sweep keep => exact Nat.le_trans (List.length_filter_le _ _) h
  | clear => exact Nat.zero_le _

/-- A history keeps a cache within its capacity. -/
theorem size_run_le (h : c.size ≤ c.capacity) (hs : CacheHistory α ε) :
    (c.run hs).size ≤ c.capacity := by
  induction hs generalizing c with
  | nil => exact h
  | cons move rest ih =>
    have hcapacity : (move.2.after c move.1).capacity = c.capacity :=
      (bounds_after move.2).1
    rw [← hcapacity]
    exact ih (by rw [hcapacity]; exact size_after_le h move.2)

end FrequencyCache

/-! ### Readers -/

/-- What can happen to a cache that several share. -/
inductive CacheEvent (α ε : Type u) where
  /-- Somebody reads a name, and has to fetch if it is not cached. -/
  | read (k : String)
  /-- The fetch of a reader comes to its end. -/
  | fetched (i : Nat) (outcome : Except ε α)
  /-- A reader is given up. -/
  | leave (i : Nat)
  | put (k : String) (value : α)
  | hit (k : String)
  | look (k : String)
  | remove (k : String)
  | clear
  | sweep (keep : String → Bool)

/-- A cache and its readers. -/
structure SharedCache (α : Type u) where
  cache : FrequencyCache α
  /-- What each reader fetches, in the order they came; none for one who has returned. -/
  fetching : List (Option String)

namespace SharedCache

/-- An empty cache without readers. -/
def start (n : Nat) (basic : Option Nat) : SharedCache α := ⟨.ofCapacity n basic, []⟩

/-- What a reader who has not returned fetches. -/
def fetching? (w : SharedCache α) (i : Nat) : Option String := callAt? w.fetching i

/-- Somebody begins to read a name, and is among the readers from now on. If the name is cached the
read is over at once. -/
def beginRead (w : SharedCache α) (k : String) (now : Nat) : SharedCache α :=
  match w.cache.beginFetch k now with
  | (some _, c) => ⟨c, w.fetching ++ [none]⟩
  | (none, c) => ⟨c, w.fetching ++ [some k]⟩

/-- The fetch of a reader ends, if that reader is still there. -/
def endRead (w : SharedCache α) (i : Nat) (outcome : Except ε α) (now : Nat) : SharedCache α :=
  match w.fetching? i with
  | none => w
  | some k => ⟨w.cache.endFetch k outcome now, w.fetching.set i none⟩

/-- Does something to the cache that no reader takes part in. -/
def onCache (w : SharedCache α) (m : CacheMove α ε) (now : Nat) : SharedCache α :=
  { w with cache := m.after w.cache now }

/-- What an event makes of a shared cache. -/
def step (w : SharedCache α) (now : Nat) : CacheEvent α ε → SharedCache α
  | .read k => w.beginRead k now
  | .fetched i outcome => w.endRead i outcome now
  | .leave i => { w with fetching := w.fetching.set i none }
  | .put k value => w.onCache (.put k value : CacheMove α ε) now
  | .hit k => w.onCache (.hit k : CacheMove α ε) now
  | .look k => w.onCache (.look k : CacheMove α ε) now
  | .remove k => w.onCache (.remove k : CacheMove α ε) now
  | .clear => w.onCache (.clear : CacheMove α ε) now
  | .sweep keep => w.onCache (.sweep keep : CacheMove α ε) now

/-- Events in order, each with its time. -/
def run (w : SharedCache α) (es : List (Nat × CacheEvent α ε)) : SharedCache α :=
  es.foldl (fun w e ↦ w.step e.1 e.2) w

variable {w : SharedCache α} {now : Nat}

/-- What a reader has to fetch is told by whether the first move found the name cached. -/
theorem beginRead_eq (w : SharedCache α) (k : String) (now : Nat) : w.beginRead k now =
    ⟨(w.cache.beginFetch k now).2,
      w.fetching ++ [if (w.cache.beginFetch k now).1.isSome then none else some k]⟩ := by
  unfold beginRead
  cases w.cache.beginFetch k now with
  | mk found c => cases found <;> rfl

/-- To the cache the beginning of a read is its first move. -/
theorem cache_beginRead (w : SharedCache α) (k : String) (now : Nat) :
    (w.beginRead k now).cache = (w.cache.beginFetch k now).2 := by
  rw [beginRead_eq]

/-- To the cache the end of a fetch is the second move of the read. -/
theorem cache_endRead {i : Nat} {k : String} (hi : w.fetching? i = some k) (outcome : Except ε α) :
    (w.endRead i outcome now).cache = w.cache.endFetch k outcome now := by
  rw [endRead, hi]

/-- Nothing ends for a reader who is not there. -/
theorem endRead_of_none {i : Nat} (hi : w.fetching? i = none) (outcome : Except ε α) :
    w.endRead i outcome now = w := by
  rw [endRead, hi]

/-- **To the cache an event is one move, or nothing.** -/
theorem cache_step (w : SharedCache α) (now : Nat) (e : CacheEvent α ε) :
    (w.step now e).cache = w.cache ∨
      ∃ m : CacheMove α ε, (w.step now e).cache = m.after w.cache now := by
  cases e with
  | read k => exact .inr ⟨.beginFetch k, w.cache_beginRead k now⟩
  | fetched i outcome =>
    cases hi : w.fetching? i with
    | none => exact .inl (by rw [step, endRead_of_none hi])
    | some k => exact .inr ⟨.endFetch k outcome, cache_endRead hi outcome⟩
  | leave i => exact .inl rfl
  | put k value => exact .inr ⟨.put k value, rfl⟩
  | hit k => exact .inr ⟨.hit k, rfl⟩
  | look k => exact .inr ⟨.look k, rfl⟩
  | remove k => exact .inr ⟨.remove k, rfl⟩
  | clear => exact .inr ⟨.clear, rfl⟩
  | sweep keep => exact .inr ⟨.sweep keep, rfl⟩

/-- **Whatever the readers do is a history of the cache.** -/
theorem exists_history (w : SharedCache α) (es : List (Nat × CacheEvent α ε)) :
    ∃ hs : CacheHistory α ε, (w.run es).cache = w.cache.run hs := by
  induction es generalizing w with
  | nil => exact ⟨[], rfl⟩
  | cons e rest ih =>
    obtain ⟨hs, hhs⟩ := ih (w.step e.1 e.2)
    rcases cache_step w e.1 e.2 with hsame | ⟨m, hmove⟩
    · exact ⟨hs, by rw [← hsame]; exact hhs⟩
    · exact ⟨(e.1, m) :: hs, by rw [FrequencyCache.run, List.foldl_cons, ← hmove]; exact hhs⟩

/-- What holds of a cache of requested capacity `n` at any time. -/
structure WithinCapacity (w : SharedCache α) (n : Nat) (ε : Type u) : Prop where
  /-- No name has two entries. -/
  distinct : w.cache.Distinct
  size_le : w.cache.size ≤ max n 1
  /-- A value that is put is there then, whatever had to go for it. -/
  put : ∀ now k value, (w.step now (.put k value : CacheEvent α ε)).cache.get? k = some value
  /-- So is a value that a reader has fetched. -/
  fetched : ∀ now i k value, w.fetching? i = some k →
    (w.step now (.fetched i (.ok value) : CacheEvent α ε)).cache.get? k = some value

/-- **A cache stays within its capacity, and has what was just written,** in whatever order its
readers come and their fetches end. -/
theorem within_capacity (n : Nat) (basic : Option Nat) (es : List (Nat × CacheEvent α ε)) :
    ((start n basic).run es).WithinCapacity n ε := by
  obtain ⟨hs, hhs⟩ := exists_history (start n basic) es
  have hempty : (FrequencyCache.ofCapacity n basic : FrequencyCache α).size ≤ max n 1 :=
    Nat.zero_le _
  have hdistinct : ((start n basic).run es).cache.Distinct := by
    rw [hhs]
    exact (FrequencyCache.distinct_ofCapacity n basic).run hs
  refine ⟨hdistinct, ?_, fun now k value ↦ ?_, fun now i k value hi ↦ ?_⟩
  · rw [hhs]
    exact FrequencyCache.size_run_le hempty hs
  · exact FrequencyCache.get_put_self hdistinct value
  · rw [step, cache_endRead hi]
    exact FrequencyCache.get_put_self hdistinct value

/-- Two readers fetch the same name in a cache for one, and another name comes and goes
meanwhile. -/
example :
    ((start 0 none : SharedCache Nat).run
      [(0, (.read "a" : CacheEvent Nat Unit)), (1, .read "a"), (2, .fetched 1 (.ok 5)),
        (3, .put "b" 6), (4, .fetched 0 (.ok 7))]).cache.entries = [("a", ⟨7, 1, 4, 4⟩)] := by
  decide

end SharedCache

end GraphSession
