import GraphSession.Proofs.Cache.Capacity

/-!
# A read and what happens meanwhile

A read that finds nothing decides to fetch, and acts on it when the fetch has come to its end. In
between the cache is in the hands of others: they write the name or drop it, make it go for another
name, or fetch it themselves. None of this matters to the read (`SharedCache.read_through`). It
returns what it has fetched, and what is left is what the others leave, with the value written on
top of it if there is one.

**The others alone.** What the others leave is told by the same events in a cache where that reader
has never come, so that those who come later have lower numbers (`CacheEvent.without`). A reader who
fetches is not in anyone's way: taking the reader out of the cache before the events is the same as
after them (`SharedCache.without_run`).
-/

namespace GraphSession

universe u

variable {α ε : Type u}

/-! ### Readers who are not there -/

/-- The number of a reader if reader `i` had not come. -/
def renumber (i j : Nat) : Nat := if j < i then j else j - 1

/-- When one place of a list is taken out, the calls of all others are found at their new numbers.
-/
theorem callAt?_eraseIdx {κ : Type} {i j : Nat} (h : j ≠ i) (calls : List (Option κ)) :
    callAt? (calls.eraseIdx i) (renumber i j) = callAt? calls j := by
  rw [callAt?, callAt?, List.getElem?_eraseIdx, renumber]
  by_cases hj : j < i
  · rw [if_pos hj, if_pos hj]
  · rw [if_neg hj, if_neg (by omega), Nat.sub_add_cancel (by omega)]

/-- What happens at one place and taking out another one can be exchanged. -/
theorem eraseIdx_set_renumber {κ : Type} {i j : Nat} (h : j ≠ i) (calls : List (Option κ))
    (c : Option κ) :
    (calls.set j c).eraseIdx i = (calls.eraseIdx i).set (renumber i j) c := by
  rw [renumber]
  split_ifs with hj
  · exact List.eraseIdx_set_gt hj
  · exact List.eraseIdx_set_lt (by omega)

/-- What happens at one place leaves the others alone. -/
theorem callAt?_set_of_ne {κ : Type} {i j : Nat} (h : j ≠ i) (calls : List (Option κ))
    (c : Option κ) :
    callAt? (calls.set j c) i = callAt? calls i := by
  rw [callAt?, callAt?, List.getElem?_set_ne h]

/-- A further call leaves those before as they are. -/
theorem callAt?_concat_of_lt {κ : Type} {i : Nat} {calls : List (Option κ)} (hi : i < calls.length)
    (c : Option κ) : callAt? (calls ++ [c]) i = callAt? calls i := by
  rw [callAt?, callAt?, List.getElem?_append_left hi]

namespace CacheEvent

/-- The reader who is concerned, if an event is the end of a read. -/
def reader? : CacheEvent α ε → Option Nat
  | fetched j _ | leave j => some j
  | read _ | put _ _ | hit _ | look _ | remove _ | clear | sweep _ => none

/-- The same event where reader `i` has not come. -/
def without (i : Nat) : CacheEvent α ε → CacheEvent α ε
  | fetched j outcome => fetched (renumber i j) outcome
  | leave j => leave (renumber i j)
  | e => e

end CacheEvent

namespace SharedCache

variable {w : SharedCache α} {i : Nat} {k : String} {now : Nat} {e : CacheEvent α ε}
  {es : List (Nat × CacheEvent α ε)}

/-- The cache where reader `i` has not come. -/
def without (w : SharedCache α) (i : Nat) : SharedCache α := ⟨w.cache, w.fetching.eraseIdx i⟩

/-- The reader who is answered by an event, and the answer. -/
def answer? (w : SharedCache α) (now : Nat) : CacheEvent α ε → Option (Nat × Except ε α)
  | .read k => (w.cache.beginFetch k now).1.map fun a ↦ (w.fetching.length, .ok a)
  | .fetched i outcome => (w.fetching? i).map fun _ ↦ (i, outcome)
  | .leave _ | .put _ _ | .hit _ | .look _ | .remove _ | .clear | .sweep _ => none

/-! ### One event -/

/-- Readers are numbered in the order they came, and no number is given away. -/
theorem length_le_step (w : SharedCache α) (now : Nat) (e : CacheEvent α ε) :
    w.fetching.length ≤ (w.step now e).fetching.length := by
  cases e with
  | read k =>
    rw [step, beginRead_eq, List.length_append]
    exact Nat.le_add_right _ _
  | fetched j outcome =>
    rw [step, endRead]
    split
    · exact Nat.le_refl _
    · exact Nat.le_of_eq (List.length_set ..).symm
  | leave j => exact Nat.le_of_eq (List.length_set ..).symm
  | put | hit | look | remove | clear | sweep => exact Nat.le_refl _

/-- **A reader stays as it is** while others come and their reads end. -/
theorem fetching?_step (hi : i < w.fetching.length) (he : e.reader? ≠ some i) :
    (w.step now e).fetching? i = w.fetching? i := by
  cases e with
  | read k =>
    rw [step, beginRead_eq, fetching?, fetching?]
    exact callAt?_concat_of_lt hi _
  | fetched j outcome =>
    rw [step, endRead]
    split
    · rfl
    · exact callAt?_set_of_ne (fun hj ↦ he (congrArg some hj)) _ _
  | leave j => exact callAt?_set_of_ne (fun hj ↦ he (congrArg some hj)) _ _
  | put | hit | look | remove | clear | sweep => rfl

/-- A reader who has returned does not come back. -/
theorem fetching?_step_of_none (hi : i < w.fetching.length) (hreturned : w.fetching? i = none) :
    (w.step now e).fetching? i = none := by
  by_cases he : e.reader? = some i
  · cases e with
    | fetched j outcome =>
      cases he
      rw [step, endRead_of_none hreturned]
      exact hreturned
    | leave j =>
      cases he
      rw [step, fetching?, callAt?, List.getElem?_set_self hi]
      rfl
    | read | put | hit | look | remove | clear | sweep => cases he
  · rw [fetching?_step hi he, hreturned]

/-- **An event of others** is the same with and without a reader. -/
theorem without_step (hi : i < w.fetching.length) (he : e.reader? ≠ some i) :
    (w.step now e).without i = (w.without i).step now (e.without i) := by
  cases e with
  | read k =>
    have hread : (CacheEvent.read k : CacheEvent α ε).without i = .read k := rfl
    rw [hread, step, step, beginRead_eq, beginRead_eq, without, without,
      List.eraseIdx_append_of_lt_length hi]
  | fetched j outcome =>
    have hj : j ≠ i := fun hj ↦ he (congrArg some hj)
    have hsame : (w.without i).fetching? (renumber i j) = w.fetching? j := callAt?_eraseIdx hj _
    rw [CacheEvent.without, step, step, endRead, endRead, hsame]
    cases w.fetching? j with
    | none => rfl
    | some k => exact congrArg (SharedCache.mk _) (eraseIdx_set_renumber hj _ _)
  | leave j =>
    exact congrArg (SharedCache.mk _) (eraseIdx_set_renumber (fun hj ↦ he (congrArg some hj)) _ _)
  | put | hit | look | remove | clear | sweep => rfl

/-! ### Many events -/

/-- Nothing happens to a reader unless an event is about him. -/
theorem fetching?_run (hi : i < w.fetching.length) (hes : ∀ e ∈ es, e.2.reader? ≠ some i) :
    (w.run es).fetching? i = w.fetching? i := by
  induction es generalizing w with
  | nil => rfl
  | cons e rest ih =>
    obtain ⟨he, hrest⟩ := List.forall_mem_cons.1 hes
    rw [run, List.foldl_cons]
    exact (ih (Nat.lt_of_lt_of_le hi (length_le_step w e.1 e.2)) hrest).trans (fetching?_step hi he)

/-- A reader who has returned does not come back. -/
theorem fetching?_run_of_none (hi : i < w.fetching.length) (hreturned : w.fetching? i = none)
    (es : List (Nat × CacheEvent α ε)) : (w.run es).fetching? i = none := by
  induction es generalizing w with
  | nil => exact hreturned
  | cons e rest ih =>
    rw [run, List.foldl_cons]
    exact ih (Nat.lt_of_lt_of_le hi (length_le_step w e.1 e.2))
      (fetching?_step_of_none hi hreturned)

/-- **Events of others** are the same with and without a reader. -/
theorem without_run (hi : i < w.fetching.length) (hes : ∀ e ∈ es, e.2.reader? ≠ some i) :
    (w.run es).without i = (w.without i).run (es.map fun e ↦ (e.1, e.2.without i)) := by
  induction es generalizing w with
  | nil => rfl
  | cons e rest ih =>
    obtain ⟨he, hrest⟩ := List.forall_mem_cons.1 hes
    rw [run, List.foldl_cons, List.map_cons, run, List.foldl_cons, ← without_step hi he]
    exact ih (Nat.lt_of_lt_of_le hi (length_le_step w e.1 e.2)) hrest

/-! ### A read -/

/-- The reader who comes next. -/
def next (w : SharedCache α) : Nat := w.fetching.length

/-- The reader has come who reads a name, and others have done something since. -/
def during (w : SharedCache α) (k : String) (begun : Nat) (es : List (Nat × CacheEvent α ε)) :
    SharedCache α :=
  (w.step begun (.read k : CacheEvent α ε)).run es

/-- The events of others where the reader who comes next has not come. -/
def others (w : SharedCache α) (es : List (Nat × CacheEvent α ε)) : List (Nat × CacheEvent α ε) :=
  es.map fun e ↦ (e.1, e.2.without w.next)

/-- A read of a cached name is a hit, and the reader has nothing to fetch. -/
theorem step_read_of_some {e : CacheEntry α} (h : w.cache.entry? k = some e) :
    w.step now (.read k : CacheEvent α ε) = ⟨w.cache.hit k now, w.fetching ++ [none]⟩ := by
  rw [step, beginRead_eq, FrequencyCache.beginFetch_of_some h]
  rfl

/-- A read of a name that is not cached leaves the cache alone, and the reader fetches. -/
theorem step_read_of_none (h : w.cache.entry? k = none) :
    w.step now (.read k : CacheEvent α ε) = ⟨w.cache, w.fetching ++ [some k]⟩ := by
  rw [step, beginRead_eq, FrequencyCache.beginFetch_of_none h]
  rfl

/-- A reader gets a number of his own. -/
theorem next_lt (w : SharedCache α) (x : Option String) : w.next < (w.fetching ++ [x]).length := by
  rw [next, List.length_append]
  exact Nat.lt_succ_self _

/-- What the next reader fetches is what has been put down for that reader. -/
theorem fetching?_next (c : FrequencyCache α) (x : Option String) :
    (⟨c, w.fetching ++ [x]⟩ : SharedCache α).fetching? w.next = x := by
  rw [fetching?, next, callAt?_concat, Function.update_self]

/-- **A reader who finds the name never fetches.** -/
theorem fetching?_during_of_some {e : CacheEntry α} (h : w.cache.entry? k = some e) (begun : Nat)
    (es : List (Nat × CacheEvent α ε)) : (w.during k begun es).fetching? w.next = none := by
  rw [during, step_read_of_some h]
  exact fetching?_run_of_none (w.next_lt none) (fetching?_next _ none) es

/-- **A reader who does not find it fetches**, whatever the others do. -/
theorem fetching?_during_of_none (h : w.cache.entry? k = none)
    (hes : ∀ e ∈ es, e.2.reader? ≠ some w.next) (begun : Nat) :
    (w.during k begun es).fetching? w.next = some k := by
  rw [during, step_read_of_none h, fetching?_run (w.next_lt _) hes, fetching?_next]

/-- **While a reader fetches, the others are as good as alone.** -/
theorem cache_during (h : w.cache.entry? k = none) (hes : ∀ e ∈ es, e.2.reader? ≠ some w.next)
    (begun : Nat) :
    (w.during k begun es).cache = (w.run (w.others es)).cache := by
  -- The reader has only been put down at the end, so without that reader it is the cache from
  -- before.
  have hnobody : (⟨w.cache, w.fetching ++ [some k]⟩ : SharedCache α).without w.next = w := by
    rw [without, next, List.eraseIdx_append_of_length_le (Nat.le_refl _), Nat.sub_self,
      List.eraseIdx_cons_zero, List.append_nil]
  have hothers := without_run (w := ⟨w.cache, w.fetching ++ [some k]⟩) (w.next_lt _) hes
  rw [hnobody] at hothers
  rw [during, step_read_of_none h, others, ← hothers, without]

/-- A cached value is the answer at once. -/
theorem answer?_read_of_some {e : CacheEntry α} (h : w.cache.entry? k = some e) (begun : Nat) :
    w.answer? begun (.read k : CacheEvent α ε) = some (w.next, .ok e.value) := by
  rw [answer?, FrequencyCache.beginFetch_of_some h]
  rfl

/-- A read of a name that is not cached has no answer yet. -/
theorem answer?_read_of_none (h : w.cache.entry? k = none) (begun : Nat) :
    w.answer? begun (.read k : CacheEvent α ε) = none := by
  rw [answer?, FrequencyCache.beginFetch_of_none h]
  rfl

/-- **What has been fetched is the answer**, whatever the others do. -/
theorem answer?_fetched_of_none (h : w.cache.entry? k = none)
    (hes : ∀ e ∈ es, e.2.reader? ≠ some w.next) (begun ended : Nat) (outcome : Except ε α) :
    (w.during k begun es).answer? ended (.fetched w.next outcome) = some (w.next, outcome) := by
  rw [answer?, fetching?_during_of_none h hes]
  rfl

/-- **The answer is that of a read whose fetch takes no time.** -/
theorem answer?_eq_getOrFetch (hes : ∀ e ∈ es, e.2.reader? ≠ some w.next) (begun ended : Nat)
    (outcome : Except ε α) :
    (w.answer? begun (.read k) <|> (w.during k begun es).answer? ended (.fetched w.next outcome)) =
      some (w.next, (w.cache.getOrFetch k outcome begun).1) := by
  cases h : w.cache.entry? k with
  | some e =>
    rw [answer?_read_of_some h, FrequencyCache.getOrFetch, FrequencyCache.beginFetch_of_some h]
    rfl
  | none =>
    rw [answer?_read_of_none h, answer?_fetched_of_none h hes, FrequencyCache.getOrFetch,
      FrequencyCache.beginFetch_of_none h]
    rfl

/-- **The end of the fetch** acts on the cache that the others alone have left. -/
theorem cache_fetched_of_none (h : w.cache.entry? k = none)
    (hes : ∀ e ∈ es, e.2.reader? ≠ some w.next) (begun ended : Nat) (outcome : Except ε α) :
    ((w.during k begun es).step ended (.fetched w.next outcome)).cache =
      (w.run (w.others es)).cache.endFetch k outcome ended := by
  rw [step, cache_endRead (fetching?_during_of_none h hes begun), cache_during h hes begun]

/-- What becomes of a read: others do something after it has begun, and a fetch ends after that. -/
structure Reads (w : SharedCache α) (k : String) (begun : Nat) (es : List (Nat × CacheEvent α ε))
    (outcome : Except ε α) (ended : Nat) : Prop where
  /-- A cached value is returned at once. -/
  found : ∀ e, w.cache.entry? k = some e →
    w.answer? begun (.read k : CacheEvent α ε) = some (w.next, .ok e.value)
  /-- This is one use, and changes nothing else. -/
  used : ∀ e, w.cache.entry? k = some e →
    ∀ k', FrequencyCache.entry? (w.step begun (.read k : CacheEvent α ε)).cache k' =
      if k' = k then some { e with hits := min (e.hits + 1) CacheEntry.mostHits, lastHit := begun }
      else w.cache.entry? k'
  /-- The reader does not fetch, then or later. -/
  neverFetches : ∀ e, w.cache.entry? k = some e →
    ∀ later : List (Nat × CacheEvent α ε), (w.during k begun later).fetching? w.next = none
  /-- If nothing is cached the reader has no answer, and fetches the name as long as others do
  something. -/
  fetches : w.cache.entry? k = none → w.answer? begun (.read k : CacheEvent α ε) = none ∧
    (w.during k begun es).fetching? w.next = some k
  /-- What comes of the fetch is returned as it is. -/
  returns : w.cache.entry? k = none →
    (w.during k begun es).answer? ended (.fetched w.next outcome) = some (w.next, outcome)
  /-- If it is a failure, the cache is what the others alone have made of it. -/
  fails : w.cache.entry? k = none → ∀ x, outcome = .error x →
    ((w.during k begun es).step ended (.fetched w.next outcome)).cache = (w.run (w.others es)).cache
  /-- If it is a value, that value has been written besides. -/
  writes : w.cache.entry? k = none → ∀ a, outcome = .ok a →
    ((w.during k begun es).step ended (.fetched w.next outcome)).cache =
      (w.run (w.others es)).cache.put k a ended
  /-- In all cases the answer is that of a read whose fetch takes no time. -/
  answers : (w.answer? begun (.read k) <|>
    (w.during k begun es).answer? ended (.fetched w.next outcome)) =
    some (w.next, (w.cache.getOrFetch k outcome begun).1)

/-- **A read goes through** whatever happens meanwhile: the name may come in, be used, be dropped or
have to go, and others may fetch it as well. -/
theorem read_through (w : SharedCache α) (k : String) (begun : Nat)
    {es : List (Nat × CacheEvent α ε)} (hes : ∀ e ∈ es, e.2.reader? ≠ some w.next)
    (outcome : Except ε α) (ended : Nat) :
    w.Reads k begun es outcome ended where
  found e h := answer?_read_of_some h begun
  used e h k' := by
    rw [step_read_of_some h, FrequencyCache.entry_hit, h]
    rfl
  neverFetches e h later := fetching?_during_of_some h begun later
  fetches h := ⟨answer?_read_of_none h begun, fetching?_during_of_none h hes begun⟩
  returns h := answer?_fetched_of_none h hes begun ended outcome
  fails h x hx := by
    rw [cache_fetched_of_none h hes, hx, FrequencyCache.endFetch]
  writes h a ha := by
    rw [cache_fetched_of_none h hes, ha, FrequencyCache.endFetch]
  answers := answer?_eq_getOrFetch hes begun ended outcome

/-- A second reader of a name comes and goes while the first one fetches it. In between the name is
written, used, dropped, and would have to go. -/
def busyEvents : List (Nat × CacheEvent Nat String) :=
  [(1, .read "a"), (2, .put "a" 1), (3, .read "a"), (4, .remove "a"), (5, .put "b" 2),
    (6, .fetched 1 (.ok 3)), (7, .hit "a"), (8, .put "c" 4), (9, .fetched 2 (.error "late"))]

/-- A name that has come and gone while it was fetched is written in the end, and a fetch that fails
is returned as it is. -/
theorem read_through_busyEvents :
    let w : SharedCache Nat := start 1 none
    (∀ e ∈ busyEvents, e.2.reader? ≠ some w.next) ∧ w.cache.entry? "a" = none ∧
      ((w.during "a" 0 busyEvents).step 10
        (.fetched 0 (.ok 5) : CacheEvent Nat String)).cache.entries =
        [("a", ⟨5, 1, 10, 10⟩)] ∧
      ((w.during "a" 0 busyEvents).step 10 (.fetched 0 (.ok 5) : CacheEvent Nat String)).cache =
        (w.run (w.others busyEvents)).cache.put "a" 5 10 ∧
      (w.during "a" 0 busyEvents).answer? 10 (.fetched 0 (.error "gone") : CacheEvent Nat String) =
        some (0, .error "gone") := by
  have hes : ∀ e ∈ busyEvents, e.2.reader? ≠ some (start 1 none : SharedCache Nat).next := by decide
  have hnew : FrequencyCache.entry? (start 1 none : SharedCache Nat).cache "a" = none := rfl
  exact ⟨hes, hnew, by decide, (read_through (start 1 none) "a" 0 hes (.ok 5) 10).writes hnew 5 rfl,
    (read_through (start 1 none) "a" 0 hes (.error "gone") 10).returns hnew⟩

end SharedCache

end GraphSession
