import Mathlib.Data.List.MinMax
import Mathlib.Data.Prod.Lex
import GraphSession.Proofs.Cache.Entries

/-!
# Who has to go

A value that is written under a cached name replaces the one that was there, and a new name comes in
beside the others as long as there is room. In a full cache one entry goes, and no other entry has
fewer uses, or as many and an older last use. Everything else is left as it was
(`FrequencyCache.Puts`).

**A least entry.** Uses and the time of the last one are compared in this order, so the entry that
goes is the first least one in the order of the list (`FrequencyCache.victim?_eq_argmin`). The list
may be in any order, and among entries that are equal in both any one may be the first. If no two
are, there is only one least entry (`FrequencyCache.MayGo.unique`), and the order does not matter.
-/

namespace GraphSession

universe u

variable {α : Type u}

namespace CacheEntry

variable {a b : CacheEntry α}

/-- Uses first, and the time of the last one among equals. -/
def rank (e : CacheEntry α) : Nat ×ₗ Nat := toLex (e.hits, e.lastHit)

/-- The order in which entries go, in numbers. -/
theorem rank_lt_iff : a.rank < b.rank ↔ a.hits < b.hits ∨ a.hits = b.hits ∧ a.lastHit < b.lastHit :=
  Prod.Lex.toLex_lt_toLex

/-- An entry goes before another if it is smaller in that order. -/
theorem goesBefore_iff : a.goesBefore b = true ↔ a.rank < b.rank := by
  rw [rank_lt_iff, goesBefore, Bool.or_eq_true, Bool.and_eq_true, decide_eq_true_eq, beq_iff_eq,
    decide_eq_true_eq]

end CacheEntry

namespace FrequencyCache

variable {c c' : FrequencyCache α} {k k' : String} {e e' : CacheEntry α} {now : Nat}

/-! ### The least entry -/

/-- An entry that may go for a new one: no entry has fewer uses, or as many and an older last
use. -/
structure MayGo (c : FrequencyCache α) (k : String) (e : CacheEntry α) : Prop where
  there : c.entry? k = some e
  least : ∀ k' e', c.entry? k' = some e' →
    ¬ (e'.hits < e.hits ∨ e'.hits = e.hits ∧ e'.lastHit < e.lastHit)

/-- No two entries are equal in uses and in the time of the last one. -/
def NoTies (c : FrequencyCache α) : Prop :=
  ∀ k e k' e', c.entry? k = some e → c.entry? k' = some e' →
    e.hits = e'.hits → e.lastHit = e'.lastHit → k = k'

/-- **Without ties one entry alone may go.** -/
theorem MayGo.unique (hc : c.NoTies) (h : c.MayGo k e) (h' : c.MayGo k' e') : k = k' := by
  have hle := h.least k' e' h'.there
  have hge := h'.least k e h.there
  exact hc k e k' e' h.there h'.there (by omega) (by omega)

/-- What may go is told by the entries alone. -/
theorem MayGo.of_entry_eq (hsame : entry? c' = entry? c) (h : c'.MayGo k e) : c.MayGo k e where
  there := hsame ▸ h.there
  least := hsame ▸ h.least

/-- A search through the list that keeps the first least entry finds what a fold for the least rank
finds. -/
theorem foldl_argAux_rank (rest : List (String × CacheEntry α)) (w : String × CacheEntry α) :
    rest.foldl (List.argAux fun x w ↦ x.2.rank < w.2.rank) (some w) =
      some (rest.foldl (fun w x ↦ if x.2.goesBefore w.2 then x else w) w) := by
  induction rest generalizing w with
  | nil => rfl
  | cons x rest ih =>
    rw [List.foldl_cons, List.foldl_cons, ← ih]
    simp only [List.argAux, CacheEntry.goesBefore_iff]
    split <;> rfl

/-- **The name that has to go** is that of the first least entry. -/
theorem victim?_eq_argmin (es : List (String × CacheEntry α)) :
    victim? es = (es.argmin fun x ↦ x.2.rank).map Prod.fst := by
  cases es with
  | nil => rfl
  | cons first rest =>
    rw [List.argmin, List.foldl_cons]
    exact congrArg (Option.map Prod.fst) (foldl_argAux_rank rest first).symm

/-- What has to go is an entry that may go: no other entry is smaller. -/
theorem mayGo_of_victim? (hc : c.Distinct) (h : victim? c.entries = some k) : ∃ e, c.MayGo k e := by
  rw [victim?_eq_argmin] at h
  obtain ⟨⟨name, e⟩, hleast, rfl⟩ := Option.map_eq_some_iff.1 h
  refine ⟨e, (Entries.lookup_eq_some_iff hc).2 (List.argmin_mem hleast), fun k' e' he' hlt ↦ ?_⟩
  have hle := List.le_of_mem_argmin (Entries.mem_of_lookup he') hleast
  exact absurd (CacheEntry.rank_lt_iff.2 hlt) (not_lt_of_ge hle)

/-- A full cache has somebody to go. -/
theorem exists_victim? (hfull : c.capacity ≤ c.size) : ∃ k, victim? c.entries = some k := by
  cases hentries : c.entries with
  | nil =>
    have hpos := c.capacity_pos
    rw [size, hentries, List.length_nil] at hfull
    omega
  | cons first rest => exact ⟨_, rfl⟩

/-! ### Writing -/

/-- Under a cached name the value is replaced and the use is counted. -/
theorem entry_put_of_some (h : c.entry? k = some e) (value : α) :
    entry? (c.put k value now) k' =
      if k' = k then some ⟨value, min (e.hits + 1) CacheEntry.mostHits, now, e.createdAt⟩
      else c.entry? k' := by
  rw [put_of_some h, entry_modify, h]
  rfl

/-- A new name comes in beside the others as long as there is room. -/
theorem entry_put_of_lt (hc : c.Distinct) (h : c.entry? k = none) (hroom : c.size < c.capacity)
    (value : α) :
    entry? (c.put k value now) k' = if k' = k then some (.fresh value now) else c.entry? k' := by
  rw [entry_put_of_none hc h, makeRoom_of_lt hroom]

/-- **In a full cache one entry goes** for the new one, and all others stay as they are. -/
theorem entry_put_of_le (hc : c.Distinct) (h : c.entry? k = none) (hfull : c.capacity ≤ c.size)
    (value : α) :
    ∃ victim e, c.MayGo victim e ∧ ∀ k', entry? (c.put k value now) k' =
      if k' = k then some (.fresh value now) else if k' = victim then none else c.entry? k' := by
  obtain ⟨victim, hvictim⟩ := exists_victim? hfull
  obtain ⟨e, hgo⟩ := mayGo_of_victim? hc hvictim
  have hroom : c.makeRoom = c.remove victim := by rw [makeRoom, if_pos hfull, hvictim]
  refine ⟨victim, e, hgo, fun k' ↦ ?_⟩
  rw [entry_put_of_none hc h, hroom, entry_remove hc]

/-! ### How many there are -/

/-- Removing a cached name takes exactly one entry away. -/
theorem size_remove (hc : c.Distinct) (h : c.entry? k = some e) :
    (c.remove k).size + 1 = c.size := by
  have hkeys : Entries.keys (c.remove k).entries = (Entries.keys c.entries).erase k := by
    rw [hc.erase_eq_filter, remove, Entries.keys, Entries.keys, List.filter_map]
    refine congrArg (List.map Prod.fst) (List.filter_congr fun x _ ↦ ?_)
    rw [Function.comp_apply, Bool.eq_iff_iff, decide_eq_true_iff, bne_iff_ne]
  have hmem : k ∈ Entries.keys c.entries := List.mem_map_of_mem (Entries.mem_of_lookup h)
  have hlength := congrArg List.length hkeys
  rw [List.length_erase_of_mem hmem, Entries.keys, Entries.keys, List.length_map,
    List.length_map] at hlength
  have hpos : 0 < c.entries.length := List.length_pos_of_mem (Entries.mem_of_lookup h)
  rw [size, size, hlength]
  omega

/-- **At most one entry goes.** -/
theorem size_put (hc : c.Distinct) (hsize : c.size ≤ c.capacity) (value : α) :
    (c.put k value now).size = if c.contains k then c.size else min (c.size + 1) c.capacity := by
  cases h : c.entry? k with
  | some e => rw [put_of_some h, size_modify, contains, h, Option.isSome_some, if_pos rfl]
  | none =>
    rw [size_put_of_none h, contains, h, Option.isSome_none, if_neg Bool.false_ne_true]
    by_cases hfull : c.capacity ≤ c.size
    · obtain ⟨victim, hvictim⟩ := exists_victim? hfull
      obtain ⟨e, hgo⟩ := mayGo_of_victim? hc hvictim
      have hgone := size_remove hc hgo.there
      rw [makeRoom, if_pos hfull, hvictim, hgone]
      omega
    · rw [makeRoom_of_lt (by omega)]
      omega

/-! ### Any order of the entries -/

/-- **Without ties the order of the entries does not matter.** -/
theorem entry_put_of_perm (hc : c.Distinct) (hties : c.NoTies)
    (hcapacity : c'.capacity = c.capacity) (hperm : c'.entries.Perm c.entries) (value : α) :
    entry? (c'.put k value now) k' = entry? (c.put k value now) k' := by
  have hc' : c'.Distinct := (hperm.map Prod.fst).nodup_iff.2 hc
  have hsame : entry? c' = entry? c := funext fun name ↦ Entries.lookup_of_perm hperm hc' name
  have hsize : c'.size = c.size := hperm.length_eq
  cases h : c.entry? k with
  | some e => rw [entry_put_of_some h, entry_put_of_some ((congrFun hsame k).trans h), hsame]
  | none =>
    have h' : entry? c' k = none := (congrFun hsame k).trans h
    by_cases hfull : c.capacity ≤ c.size
    · -- Each order has its own first least entry, but there is only one that is least.
      obtain ⟨victim, e, hgo, hput⟩ := entry_put_of_le hc h hfull value
      obtain ⟨victim', e', hgo', hput'⟩ := entry_put_of_le hc' h' (by omega) value
      obtain rfl : victim' = victim := (hgo'.of_entry_eq hsame).unique hties hgo
      rw [hput, hput', hsame]
    · rw [entry_put_of_lt hc h (by omega), entry_put_of_lt hc' h' (by omega), hsame]

/-- What it does to a cache to write a value under a name. -/
structure Puts (c : FrequencyCache α) (k : String) (value : α) (now : Nat) : Prop where
  /-- If the name is cached, its value is replaced and the use is counted. Nothing goes. -/
  replaces : ∀ e, c.entry? k = some e → ∀ k', entry? (c.put k value now) k' =
    if k' = k then some ⟨value, min (e.hits + 1) CacheEntry.mostHits, now, e.createdAt⟩
    else c.entry? k'
  /-- If it is not, it comes in, and nothing goes as long as there is room. -/
  adds : c.entry? k = none → c.size < c.capacity → ∀ k', entry? (c.put k value now) k' =
    if k' = k then some ⟨value, 1, now, now⟩ else c.entry? k'
  /-- If there is no room, one entry goes that is least. -/
  evicts : c.entry? k = none → c.capacity ≤ c.size →
    ∃ victim e, c.MayGo victim e ∧ ∀ k', entry? (c.put k value now) k' =
      if k' = k then some ⟨value, 1, now, now⟩ else if k' = victim then none else c.entry? k'
  /-- So at most one goes. -/
  size : c.size ≤ c.capacity →
    (c.put k value now).size = if c.contains k then c.size else min (c.size + 1) c.capacity
  /-- Without ties only one may go, whatever the order of the entries. -/
  settles : c.NoTies → (∀ v e v' e', c.MayGo v e → c.MayGo v' e' → v = v') ∧
    ∀ c' : FrequencyCache α, c'.capacity = c.capacity → c'.entries.Perm c.entries →
      ∀ k', entry? (c'.put k value now) k' = entry? (c.put k value now) k'

/-- **A value is written** in place of another one, or beside the others, or in place of an entry
that is least. -/
theorem put_evicts_least (hc : c.Distinct) (k : String) (value : α) (now : Nat) :
    c.Puts k value now where
  replaces _ h _ := entry_put_of_some h value
  adds h hroom _ := entry_put_of_lt hc h hroom value
  evicts h hfull := entry_put_of_le hc h hfull value
  size hsize := size_put hc hsize value
  settles hties := ⟨fun _ _ _ _ h h' ↦ h.unique hties h', fun _ hcapacity hperm _ ↦
    entry_put_of_perm hc hties hcapacity hperm value⟩

/-- A full cache in which two entries are equal in uses, and not in the time of the last one. -/
def crowded : FrequencyCache Nat :=
  ⟨3, none, [("a", ⟨1, 2, 5, 0⟩), ("b", ⟨2, 2, 3, 1⟩), ("c", ⟨3, 4, 1, 1⟩)], by decide⟩

/-- In the crowded cache the entry goes whose last use is longer ago, and so it does if the entries
are kept in the reverse order. -/
theorem put_evicts_least_crowded :
    crowded.Distinct ∧ crowded.NoTies ∧
      (∃ victim e, crowded.MayGo victim e ∧ entry? (crowded.put "d" 9 7) victim = none) ∧
      (crowded.put "d" 9 7).entries = [("a", ⟨1, 2, 5, 0⟩), ("c", ⟨3, 4, 1, 1⟩),
        ("d", ⟨9, 1, 7, 7⟩)] ∧
      ∀ k', entry? ({ crowded with entries := crowded.entries.reverse }.put "d" 9 7) k' =
        entry? (crowded.put "d" 9 7) k' := by
  have hdistinct : (Entries.keys crowded.entries).Nodup := by decide
  have hnew : crowded.entry? "d" = none := by decide
  have hties : crowded.NoTies := by
    intro k e k' e' h h' hhits hlast
    have hmem := Entries.mem_of_lookup h
    have hmem' := Entries.mem_of_lookup h'
    simp only [crowded, List.mem_cons, List.not_mem_nil, or_false, Prod.mk.injEq] at hmem hmem'
    rcases hmem with ⟨rfl, rfl⟩ | ⟨rfl, rfl⟩ | ⟨rfl, rfl⟩ <;>
      rcases hmem' with ⟨rfl, rfl⟩ | ⟨rfl, rfl⟩ | ⟨rfl, rfl⟩ <;> simp_all
  have hputs := put_evicts_least hdistinct "d" 9 7
  obtain ⟨victim, e, hgo, hput⟩ := hputs.evicts hnew (by decide)
  have hvictim : victim ≠ "d" := by
    rintro rfl
    cases hnew.symm.trans hgo.there
  refine ⟨hdistinct, hties, ⟨victim, e, hgo, ?_⟩, by decide, ?_⟩
  · rw [hput, if_neg hvictim, if_pos rfl]
  · exact (hputs.settles hties).2 _ rfl (List.reverse_perm _)

end FrequencyCache

end GraphSession
