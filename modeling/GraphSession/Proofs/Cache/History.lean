import Mathlib.Data.List.Induction
import GraphSession.Proofs.Cache.Course
import GraphSession.Proofs.Cache.Eviction

/-!
# Entries tell the history

An entry holds a value, a number of uses and two times, and operations of six kinds change them,
each in its own way. All four can be told from the history (`FrequencyCache.entries_tell_history`):
the value is the last one that was written under the name, and the rest speaks of the stay of the
name in the cache, from the move at which it came in. Uses are counted up to `2 ^ 64 - 1`, so none
is lost as long as they are fewer than `2 ^ 64`, coming in being the first.

**A stay has a beginning and an end.** A name comes in with the first value that is written under it
while it is absent, and it stays as long as no move drops it (`FrequencyCache.Stay`). Which names a
move drops is told by the move and by the cache before it (`CacheMove.Drops`): a removal drops its
name, a clearing all names, a sweep those that are not wanted or are out of time, and a new name in
a full cache the one that has to go first. While a name stays, a move can only renew its entry or
leave it (`FrequencyCache.entry_after`), so each move adds to the account of the stay what it adds
to the entry (`CacheEntry.Recounts.concat`). What was in an entry before the name left is not seen
again.
-/

namespace GraphSession

universe u

variable {α ε : Type u}

namespace CacheHistory

/-- The moves that call for a name. While the name is cached these are its uses. -/
def callsFor (k : String) (hs : CacheHistory α ε) : CacheHistory α ε :=
  hs.filter fun h ↦ h.2.name? = some k

/-- The values that are written under a name. -/
def writtenUnder (k : String) (hs : CacheHistory α ε) : List α :=
  (callsFor k hs).filterMap fun h ↦ h.2.value?

variable {k : String} {hs : CacheHistory α ε} {h : Nat × CacheMove α ε}

/-- A move that calls for a name is one more of these moves. -/
theorem callsFor_concat_of_eq (hk : h.2.name? = some k) :
    callsFor k (hs ++ [h]) = callsFor k hs ++ [h] := by
  simp [callsFor, hk]

/-- Any other move is not. -/
theorem callsFor_concat_of_ne (hk : h.2.name? ≠ some k) :
    callsFor k (hs ++ [h]) = callsFor k hs := by
  simp [callsFor, hk]

/-- A move that calls for a name may write one more value. -/
theorem writtenUnder_concat_of_eq (hk : h.2.name? = some k) :
    writtenUnder k (hs ++ [h]) = writtenUnder k hs ++ h.2.value?.toList := by
  rw [writtenUnder, callsFor_concat_of_eq hk, List.filterMap_append, writtenUnder]
  cases hvalue : h.2.value? <;> simp [hvalue]

/-- Any other move writes nothing under the name. -/
theorem writtenUnder_concat_of_ne (hk : h.2.name? ≠ some k) :
    writtenUnder k (hs ++ [h]) = writtenUnder k hs := by
  rw [writtenUnder, callsFor_concat_of_ne hk, writtenUnder]

end CacheHistory

open CacheHistory

/-- What an entry holds of a stay that began with `arrival`, some moves later. -/
structure CacheEntry.Recounts (k : String) (before : CacheHistory α ε)
    (arrival : Nat × CacheMove α ε) (since : CacheHistory α ε) (e : CacheEntry α) : Prop where
  /-- The last value that was written under the name, or fetched for it. -/
  value : (writtenUnder k (before ++ arrival :: since)).getLast? = some e.value
  /-- Coming in is one use, and every use since counts. -/
  hits : e.hits = min (1 + (callsFor k since).length) mostHits
  /-- The time of the last of these. -/
  lastHit : e.lastHit = ((callsFor k since).map Prod.fst).getLastD arrival.1
  /-- The time at which the name came in. -/
  createdAt : e.createdAt = arrival.1

namespace CacheEntry.Recounts

variable {k : String} {before since : CacheHistory α ε} {arrival h : Nat × CacheMove α ε}
  {e e' : CacheEntry α}

/-- The history leaves nothing open. -/
theorem eq (he : e.Recounts k before arrival since) (he' : e'.Recounts k before arrival since) :
    e = e' := by
  obtain ⟨value, hits, lastHit, createdAt⟩ := e
  obtain ⟨value', hits', lastHit', createdAt'⟩ := e'
  obtain rfl : value = value' := Option.some.inj (he.value.symm.trans he'.value)
  obtain rfl : hits = hits' := he.hits.trans he'.hits.symm
  obtain rfl : lastHit = lastHit' := he.lastHit.trans he'.lastHit.symm
  obtain rfl : createdAt = createdAt' := he.createdAt.trans he'.createdAt.symm
  rfl

/-- A name comes in. -/
theorem fresh {value : α} (hk : arrival.2.name? = some k) (hvalue : arrival.2.value? = some value) :
    (CacheEntry.fresh value arrival.1).Recounts k before arrival [] where
  value := by
    rw [writtenUnder_concat_of_eq hk, hvalue, Option.toList_some, List.getLast?_concat]
    rfl
  hits := rfl
  lastHit := rfl
  createdAt := rfl

/-- **A move that calls for the name** adds to the account what it adds to the entry. -/
theorem concat (he : e.Recounts k before arrival since) (hk : h.2.name? = some k)
    (hrenewed : h.2.renewed h.1 (some e) = some e') :
    e'.Recounts k before arrival (since ++ [h]) := by
  have hcalls : callsFor k (since ++ [h]) = callsFor k since ++ [h] := callsFor_concat_of_eq hk
  have hwritten : writtenUnder k (before ++ arrival :: (since ++ [h])) =
      writtenUnder k (before ++ arrival :: since) ++ h.2.value?.toList := by
    rw [← List.cons_append, ← List.append_assoc, writtenUnder_concat_of_eq hk]
  have hcount : min (e.hits + 1) mostHits =
      min (1 + (callsFor k (since ++ [h])).length) mostHits := by
    rw [he.hits, hcalls, List.length_append, List.length_singleton]
    omega
  have htime : h.1 = ((callsFor k (since ++ [h])).map Prod.fst).getLastD arrival.1 := by
    rw [hcalls, List.map_append, List.map_singleton, List.getLastD_concat]
  rw [CacheMove.renewed] at hrenewed
  cases hvalue : h.2.value? with
  | none =>
    rw [hvalue] at hrenewed hwritten
    cases hrenewed
    rw [Option.toList_none, List.append_nil] at hwritten
    exact ⟨hwritten ▸ he.value, hcount, htime, he.createdAt⟩
  | some value =>
    rw [hvalue] at hrenewed hwritten
    cases hrenewed
    exact ⟨by rw [hwritten, Option.toList_some, List.getLast?_concat]; rfl, hcount, htime,
      he.createdAt⟩

/-- Any other move that leaves the name cached adds nothing. -/
theorem concat_of_ne (he : e.Recounts k before arrival since) (hk : h.2.name? ≠ some k) :
    e.Recounts k before arrival (since ++ [h]) := by
  have hcalls : callsFor k (since ++ [h]) = callsFor k since := callsFor_concat_of_ne hk
  have hwritten : writtenUnder k (before ++ arrival :: (since ++ [h])) =
      writtenUnder k (before ++ arrival :: since) := by
    rw [← List.cons_append, ← List.append_assoc, writtenUnder_concat_of_ne hk]
  exact ⟨hwritten ▸ he.value, hcalls ▸ he.hits, hcalls ▸ he.lastHit, he.createdAt⟩

end CacheEntry.Recounts

namespace FrequencyCache

variable {c : FrequencyCache α} {k : String} {before since hs : CacheHistory α ε}
  {arrival h : Nat × CacheMove α ε} {e : CacheEntry α}

/-- A value is written under a name that was absent, and no move since has dropped it. -/
structure Stay (c : FrequencyCache α) (k : String) (before : CacheHistory α ε)
    (arrival : Nat × CacheMove α ε) (since : CacheHistory α ε) : Prop where
  absent : (c.run before).contains k = false
  comes : arrival.2.name? = some k ∧ arrival.2.value?.isSome = true
  stays : ∀ front h back, since = front ++ h :: back →
    ¬ h.2.Drops (c.run (before ++ arrival :: front)) h.1 k

/-- A stay that has just begun. -/
theorem Stay.nil (habsent : (c.run before).contains k = false)
    (hcomes : arrival.2.name? = some k ∧ arrival.2.value?.isSome = true) :
    c.Stay k before arrival [] where
  absent := habsent
  comes := hcomes
  stays front _ _ hnil := by cases front <;> cases hnil

/-- A stay goes on with a move that does not drop the name. -/
theorem stay_concat_iff : c.Stay k before arrival (since ++ [h]) ↔
    c.Stay k before arrival since ∧ ¬ h.2.Drops (c.run (before ++ arrival :: since)) h.1 k := by
  constructor
  · intro stay
    refine ⟨⟨stay.absent, stay.comes, fun front h' back hsince ↦ ?_⟩, stay.stays since h [] rfl⟩
    exact stay.stays front h' (back ++ [h]) (by rw [hsince, List.append_assoc, List.cons_append])
  · rintro ⟨stay, hkept⟩
    refine ⟨stay.absent, stay.comes, fun front h' back hsince ↦ ?_⟩
    -- The move is the new one, or it was made before it.
    rcases List.eq_nil_or_concat back with rfl | ⟨back, last, rfl⟩
    · obtain ⟨rfl, hlast⟩ := List.append_inj' hsince rfl
      cases hlast
      exact hkept
    · rw [List.concat_eq_append, ← List.cons_append, ← List.append_assoc] at hsince
      exact stay.stays front h' back (List.append_inj' hsince rfl).1

/-- **What a stay has made of the entry.** -/
theorem Stay.recounts (hc : c.Distinct) (stay : c.Stay k before arrival since) :
    ∃ e, entry? (c.run (before ++ arrival :: since)) k = some e ∧
      e.Recounts k before arrival since := by
  induction since using List.reverseRecOn with
  | nil =>
    obtain ⟨hk, hwrites⟩ := stay.comes
    obtain ⟨value, hvalue⟩ := Option.isSome_iff_exists.1 hwrites
    refine ⟨.fresh value arrival.1, ?_, .fresh hk hvalue⟩
    -- the name comes in, so the entry is a new one
    have habsent : entry? (c.run before) k = none := by
      simpa [contains] using stay.absent
    rw [run_concat]
    rcases entry_after (k := k) (hc.run before) arrival.2 arrival.1 with ⟨hdrops, -⟩ | ⟨-, hsame⟩
    · exact absurd hdrops (CacheMove.not_drops_of_name? hk)
    · rw [hsame, if_pos hk, CacheMove.renewed, hvalue, habsent]
      rfl
  | append_singleton since h ih =>
    obtain ⟨stay, hkept⟩ := stay_concat_iff.1 stay
    obtain ⟨e, he, hrecounts⟩ := ih stay
    rw [← List.cons_append, ← List.append_assoc, run_concat]
    rcases entry_after (k := k) (hc.run _) h.2 h.1 with ⟨hdrops, -⟩ | ⟨-, hsame⟩
    · exact absurd hdrops hkept
    · rw [hsame, he]
      -- the name stays, and its entry is renewed if the move is about it
      split_ifs with hk
      · obtain ⟨e', he'⟩ : ∃ e', h.2.renewed h.1 (some e) = some e' := by
          rw [← Option.isSome_iff_exists, CacheMove.isSome_renewed, Option.isSome_some,
            Bool.or_true]
        exact ⟨e', he', hrecounts.concat hk he'⟩
      · exact ⟨e, rfl, hrecounts.concat_of_ne hk⟩

/-- **What is cached is on a stay**, if the cache was empty. -/
theorem exists_stay (hc : c.Distinct) (hempty : c.entry? k = none) (hk : (c.run hs).contains k) :
    ∃ before arrival since, hs = before ++ arrival :: since ∧ c.Stay k before arrival since := by
  induction hs using List.reverseRecOn with
  | nil =>
    rw [run, List.foldl_nil, contains, hempty] at hk
    cases hk
  | append_singleton hs h ih =>
    rw [run_concat] at hk
    cases hbefore : (c.run hs).contains k with
    | false =>
      rcases (contains_after_iff (hc.run hs) h.2 h.1).1 hk with hcomes | ⟨hthere, -⟩
      · exact ⟨hs, h, [], rfl, .nil hbefore hcomes⟩
      · cases hbefore.symm.trans hthere
    | true =>
      obtain ⟨before, arrival, since, rfl, stay⟩ := ih hbefore
      refine ⟨before, arrival, since ++ [h], by simp, stay_concat_iff.2 ⟨stay, ?_⟩⟩
      rcases (contains_after_iff (hc.run _) h.2 h.1).1 hk with ⟨hname, -⟩ | ⟨-, hkept⟩
      · exact CacheMove.not_drops_of_name? hname
      · exact hkept

/-- A name has an entry exactly if the history ends with a stay of that name, and the entry is the
account of that stay. -/
theorem cached_iff_recounts (hc : c.Distinct) (hempty : c.entry? k = none) :
    entry? (c.run hs) k = some e ↔ ∃ before arrival since, hs = before ++ arrival :: since ∧
      c.Stay k before arrival since ∧ e.Recounts k before arrival since := by
  constructor
  · intro he
    obtain ⟨before, arrival, since, rfl, stay⟩ :=
      exists_stay hc hempty (Option.isSome_iff_exists.2 ⟨e, he⟩)
    obtain ⟨e', he', hrecounts⟩ := stay.recounts hc
    obtain rfl := Option.some.inj (he.symm.trans he')
    exact ⟨before, arrival, since, rfl, stay, hrecounts⟩
  · rintro ⟨before, arrival, since, rfl, stay, hrecounts⟩
    obtain ⟨e', he', hrecounts'⟩ := stay.recounts hc
    rw [he', hrecounts'.eq hrecounts]

/-- What the entries of a cache and the histories that it may go through say of each other. -/
structure TellsHistory (c : FrequencyCache α) (ε : Type u) : Prop where
  /-- After any history, the names that are on a stay have entries, which are the accounts of these
  stays, and no other names have any. -/
  told_iff : ∀ (hs : CacheHistory α ε) k e, entry? (c.run hs) k = some e ↔
    ∃ before arrival since, hs = before ++ arrival :: since ∧
      c.Stay k before arrival since ∧ e.Recounts k before arrival since
  /-- A name is cached after a move exactly if the move writes a value under it, or it was cached
  before and the move does not drop it. So a name that is removed, cleared away, swept out or has to
  go for another one is absent, and its next stay is a new one. -/
  cached_iff : ∀ (hs : CacheHistory α ε) t m k, (c.run (hs ++ [(t, m)])).contains k = true ↔
    m.name? = some k ∧ m.value?.isSome = true ∨
      (c.run hs).contains k = true ∧ ¬ m.Drops (c.run hs) t k
  /-- In a full cache one entry has to go for a new name: it is one with the fewest uses, and with
  the oldest last use among those. -/
  goes : ∀ hs : CacheHistory α ε, (c.run hs).capacity ≤ (c.run hs).size →
    ∃ k e, victim? (c.run hs).entries = some k ∧ (c.run hs).MayGo k e
  /-- How many entries there may be and how long they may stay is as it was. -/
  bounds : ∀ hs : CacheHistory α ε,
    (c.run hs).capacity = c.capacity ∧ (c.run hs).basic = c.basic

/-- **Every entry is told by the history,** of every cache that began empty. -/
theorem entries_tell_history (ε : Type u) (n : Nat) (basic : Option Nat) :
    (ofCapacity n basic : FrequencyCache α).TellsHistory ε where
  told_iff _ k _ := cached_iff_recounts (distinct_ofCapacity n basic) (entry_ofCapacity n basic k)
  cached_iff hs t m k := by
    rw [run_concat]
    exact contains_after_iff ((distinct_ofCapacity n basic).run hs) m t
  goes hs hfull := by
    obtain ⟨k, hvictim⟩ := exists_victim? hfull
    obtain ⟨e, hgo⟩ := mayGo_of_victim? ((distinct_ofCapacity n basic).run hs) hvictim
    exact ⟨k, e, hvictim, hgo⟩
  bounds hs := bounds_run hs

/-- A name that has to go and comes in again starts anew. -/
example :
    entry? ((ofCapacity 1 none : FrequencyCache Nat).run
      [(0, (.put "a" 1 : CacheMove Nat Unit)), (1, .hit "a"), (2, .put "b" 2), (3, .beginFetch "a"),
        (5, .endFetch "a" (.ok 3)), (6, .look "a"), (7, .put "a" 4)]) "a" = some ⟨4, 2, 7, 5⟩ := by
  decide

end FrequencyCache

end GraphSession
