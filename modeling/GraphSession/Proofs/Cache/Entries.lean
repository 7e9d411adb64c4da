import Mathlib.Data.List.Nodup
import GraphSession.Cache.Fetch
import GraphSession.Proofs.Maps.Entries

/-!
# The entries of a cache, name by name

What an operation on a cache does is read off the entry of each name (`FrequencyCache.entry?`), so
that no proof has to look at the list of the entries. This needs that no name has two entries
(`FrequencyCache.Distinct`): dropping an entry, as a sweep does, would otherwise bring another one
of that name to light. Every operation keeps the names distinct.

Room for a new name is made by dropping names. Which one has to go does not matter here.
-/

namespace GraphSession

universe u

namespace Entries

variable {α : Type u} {es : List (String × α)} {k k' : String}

/-- Modifying entries leaves the names as they are. -/
theorem keys_modify (f : α → α) :
    keys (es.map fun e ↦ if e.1 = k then (e.1, f e.2) else e) = keys es := by
  rw [keys, List.map_map]
  refine List.map_congr_left fun e _ ↦ ?_
  rw [Function.comp_apply]
  split <;> rfl

/-- Modifying the entries of a name changes what is found under that name, and nothing else. -/
theorem lookup_modify (f : α → α) :
    (es.map fun e ↦ if e.1 = k then (e.1, f e.2) else e).lookup k' =
      if k' = k then (es.lookup k).map f else es.lookup k' := by
  induction es with
  | nil => simp
  | cons e rest ih =>
    obtain ⟨name, a⟩ := e
    rw [List.map_cons]
    by_cases hname : name = k
    · by_cases hk : k' = k
      · simp [hname, hk]
      · simp only [hname, hk, if_true, if_false, List.lookup_cons, beq_eq_false_iff_ne.2 hk] at ih ⊢
        exact ih
    · by_cases hk : k' = name
      · simp [hname, hk]
      · simp only [hname, if_false, List.lookup_cons, beq_eq_false_iff_ne.2 hk,
          beq_eq_false_iff_ne.2 (Ne.symm hname)]
        exact ih

/-- Filtering drops what is found under a name if it fails the condition. With two entries of the
name the second one would be found then. -/
theorem lookup_filter (h : (keys es).Nodup) (p : String × α → Bool) :
    (es.filter p).lookup k = (es.lookup k).filter fun a ↦ p (k, a) := by
  induction es with
  | nil => rfl
  | cons e rest ih =>
    obtain ⟨name, a⟩ := e
    obtain ⟨hname, hrest⟩ := List.nodup_cons.1 h
    by_cases hk : k = name
    · subst hk
      cases hp : p (k, a) with
      | true => simp [hp, Option.filter_some]
      | false =>
        simp [hp, ih hrest, lookup_eq_none_of_not_mem hname, Option.filter_some]
    · cases hp : p (name, a) <;> simp [hp, List.lookup_cons, beq_eq_false_iff_ne.2 hk, ih hrest]

/-- Filtering repeats no name. -/
theorem nodup_keys_filter (h : (keys es).Nodup) (p : String × α → Bool) :
    (keys (es.filter p)).Nodup :=
  (List.filter_sublist.map Prod.fst).nodup h

end Entries

namespace FrequencyCache

variable {α ε : Type u} {c : FrequencyCache α} {k k' : String} {now : Nat}

/-- No name has two entries. -/
def Distinct (c : FrequencyCache α) : Prop := (Entries.keys c.entries).Nodup

/-- A new cache has no two entries of one name. -/
theorem distinct_ofCapacity (n : Nat) (basic : Option Nat) :
    (ofCapacity n basic : FrequencyCache α).Distinct :=
  List.nodup_nil

/-- A new cache has no entries at all. -/
theorem entry_ofCapacity (n : Nat) (basic : Option Nat) (k : String) :
    entry? (ofCapacity n basic : FrequencyCache α) k = none :=
  rfl

/-! ### Uses -/

/-- A modified entry is found in the place of the one before, and other names are as they were. -/
theorem entry_modify (f : CacheEntry α → CacheEntry α) :
    entry? (c.modify k f) k' = if k' = k then (c.entry? k).map f else c.entry? k' :=
  Entries.lookup_modify f

/-- Modifying an entry keeps names distinct. -/
theorem Distinct.modify (h : c.Distinct) (f : CacheEntry α → CacheEntry α) :
    (c.modify k f).Distinct := by
  rw [Distinct, FrequencyCache.modify, Entries.keys_modify]
  exact h

/-- Modifying an entry leaves their number as it is. -/
theorem size_modify (f : CacheEntry α → CacheEntry α) : (c.modify k f).size = c.size :=
  List.length_map _

/-- A hit touches the entry of its name, if there is one, and no other. -/
theorem entry_hit :
    entry? (c.hit k now) k' = if k' = k then (c.entry? k).map fun e ↦ e.touch now
    else c.entry? k' :=
  entry_modify _

/-- A use of a name that is not cached is none. -/
theorem hit_of_none (h : c.entry? k = none) : c.hit k now = c := by
  have hsame : (c.entries.map fun e ↦ if e.1 = k then (e.1, e.2.touch now) else e) = c.entries := by
    refine (List.map_congr_left fun e he ↦ if_neg fun hk ↦ ?_).trans (List.map_id' _)
    have hmem : k ∈ Entries.keys c.entries := List.mem_map.2 ⟨e, he, hk⟩
    rw [Entries.mem_keys_iff, ← entry?, h] at hmem
    cases hmem
  rw [hit, modify, hsame]

/-- A read that finds the name cached has its value, and counts as a use. -/
theorem beginFetch_of_some {e : CacheEntry α} (h : c.entry? k = some e) :
    c.beginFetch k now = (some e.value, c.hit k now) := by
  rw [beginFetch, get?, h]
  rfl

/-- A read that finds nothing leaves the cache alone. -/
theorem beginFetch_of_none (h : c.entry? k = none) : c.beginFetch k now = (none, c) := by
  rw [beginFetch, get?, h]
  rfl

/-- **A read begins with a use**, which is none when the name is not cached. -/
theorem beginFetch_snd : (c.beginFetch k now).2 = c.hit k now := by
  cases h : c.entry? k with
  | none => rw [beginFetch_of_none h, hit_of_none h]
  | some e => rw [beginFetch_of_some h]

/-! ### Dropping -/

/-- **Entries that fail a condition are dropped**, and no others. -/
theorem entry_filter (hc : c.Distinct) (p : String × CacheEntry α → Bool) :
    entry? ({ c with entries := c.entries.filter p } : FrequencyCache α) k =
      (c.entry? k).filter fun e ↦ p (k, e) :=
  Entries.lookup_filter hc p

/-- A removal keeps names distinct. -/
theorem Distinct.remove (hc : c.Distinct) (k : String) : (c.remove k).Distinct :=
  Entries.nodup_keys_filter hc _

/-- A removal takes out the entry of its name, and leaves every other one. -/
theorem entry_remove (hc : c.Distinct) :
    entry? (c.remove k) k' = if k' = k then none else c.entry? k' := by
  rw [remove, entry_filter hc]
  cases c.entry? k' with
  | none => rw [Option.filter_none, ite_self]
  | some e => by_cases hk : k' = k <;> simp [hk]

/-- **A sweep takes out** what is not wanted or has outlived its time. -/
theorem entry_sweep_eq_none (hc : c.Distinct) {keep : String → Bool}
    (hdrop : keep k = false ∨ ∃ e, c.entry? k = some e ∧ c.isStale now e = true) :
    entry? (c.sweep keep now) k = none := by
  rw [sweep, entry_filter hc, Option.filter_eq_none_iff]
  intro e he
  rcases hdrop with hkeep | ⟨e', he', hstale⟩
  · simp [hkeep]
  · cases he.symm.trans he'
    simp [hstale]

/-- **A sweep leaves** everything else as it is. -/
theorem entry_sweep_eq_self (hc : c.Distinct) {keep : String → Bool}
    (hkept : ¬ (keep k = false ∨ ∃ e, c.entry? k = some e ∧ c.isStale now e = true)) :
    entry? (c.sweep keep now) k = c.entry? k := by
  obtain ⟨hkeep, hfresh⟩ := not_or.1 hkept
  rw [sweep, entry_filter hc]
  cases he : c.entry? k with
  | none => rfl
  | some e =>
    have hstale : c.isStale now e = false := Bool.eq_false_iff.2 fun h ↦ hfresh ⟨e, he, h⟩
    have hwanted : keep k = true := by simpa using hkeep
    rw [Option.filter_some, hwanted, hstale]
    rfl

/-! ### Writing -/

/-- In a cache that is not full there is room already. -/
theorem makeRoom_of_lt (h : c.size < c.capacity) : c.makeRoom = c := by
  rw [makeRoom, if_neg (by omega)]

/-- Room is made by dropping names, whichever they are. -/
theorem makeRoom_entries (c : FrequencyCache α) :
    ∃ p : String → Bool, c.makeRoom.entries = c.entries.filter fun e ↦ p e.1 := by
  have hall : c.entries = c.entries.filter fun _ ↦ true := (List.filter_true _).symm
  unfold makeRoom
  split
  · split
    · exact ⟨fun _ ↦ true, hall⟩
    · rename_i k _
      exact ⟨fun name ↦ name ≠ k, rfl⟩
  · exact ⟨fun _ ↦ true, hall⟩

/-- **A full cache makes room** by taking out the entry that has to go first, and only that one. -/
theorem entry_makeRoom (hc : c.Distinct) :
    entry? c.makeRoom k' =
      if c.capacity ≤ c.size ∧ victim? c.entries = some k' then none else c.entry? k' := by
  by_cases hfull : c.capacity ≤ c.size
  · rw [makeRoom, if_pos hfull]
    cases hvictim : victim? c.entries with
    | none => rw [if_neg fun h ↦ nomatch h.2]
    | some victim => simp [entry_remove hc, hfull, eq_comm]
  · rw [makeRoom_of_lt (by omega), if_neg fun h ↦ hfull h.1]

/-- A value that is written over another is a modification. -/
theorem put_of_some {e : CacheEntry α} {value : α} (h : c.entry? k = some e) :
    c.put k value now = c.modify k fun e ↦ { e with value := value }.touch now := by
  rw [put, contains, h]
  rfl

/-- A value that is written under a new name is an entry behind the others, once there is room. -/
theorem put_of_none {value : α} (h : c.entry? k = none) :
    c.put k value now = { c with entries := c.makeRoom.entries ++ [(k, .fresh value now)] } := by
  rw [put, contains, h]
  rfl

/-- A new name adds one entry to those that are left when room was made. -/
theorem size_put_of_none {value : α} (h : c.entry? k = none) :
    (c.put k value now).size = c.makeRoom.size + 1 := by
  rw [put_of_none h]
  exact List.length_append

/-- Room is made without the name that needs it. -/
theorem lookup_makeRoom_of_none (hc : c.Distinct) (h : c.entry? k = none) :
    c.makeRoom.entries.lookup k = none := by
  obtain ⟨p, hp⟩ := c.makeRoom_entries
  rw [hp, Entries.lookup_filter hc, ← entry?, h, Option.filter_none]

/-- What an entry becomes when a value is written under its name. -/
def written (value : α) (now : Nat) (e? : Option (CacheEntry α)) : CacheEntry α :=
  e?.elim (.fresh value now) fun e ↦ { e with value := value }.touch now

/-- A new name comes in where room was made for it. -/
theorem entry_put_of_none (hc : c.Distinct) (h : c.entry? k = none) (value : α) :
    entry? (c.put k value now) k' = if k' = k then some (.fresh value now)
    else entry? c.makeRoom k' := by
  rw [put_of_none h, entry?, List.lookup_append]
  split_ifs with hk
  · rw [hk, lookup_makeRoom_of_none hc h, Option.none_or, List.lookup_cons_self]
  · rw [Entries.lookup_cons_of_ne hk, List.lookup_nil, Option.or_none, entry?]

/-- **A value that is written is cached.** -/
theorem entry_put_self (hc : c.Distinct) (value : α) :
    entry? (c.put k value now) k = some (written value now (c.entry? k)) := by
  cases h : c.entry? k with
  | some e =>
    rw [put_of_some h, entry_modify, if_pos rfl, h, Option.map_some, written, Option.elim_some]
  | none => rw [entry_put_of_none hc h, if_pos rfl, written, Option.elim_none]

/-- **Another name keeps its entry**, unless the written one is new, the cache is full and it has to
go. -/
theorem entry_put_of_ne (hc : c.Distinct) (hk : k' ≠ k) (value : α) :
    entry? (c.put k value now) k' =
      if c.contains k = false ∧ c.capacity ≤ c.size ∧ victim? c.entries = some k' then none
      else c.entry? k' := by
  cases h : c.entry? k with
  | some e =>
    have hcached : c.contains k = true := by rw [contains, h, Option.isSome_some]
    rw [put_of_some h, entry_modify, if_neg hk, hcached, if_neg fun hgo ↦ Bool.noConfusion hgo.1]
  | none =>
    have hnew : c.contains k = false := by rw [contains, h, Option.isSome_none]
    rw [entry_put_of_none hc h, if_neg hk, entry_makeRoom hc, hnew]
    simp only [true_and]

/-- Writing a value keeps names distinct: a new name was not there, and making room adds none. -/
theorem Distinct.put (hc : c.Distinct) (value : α) : (c.put k value now).Distinct := by
  cases h : c.entry? k with
  | some e =>
    rw [put_of_some h]
    exact hc.modify _
  | none =>
    have hroom : (Entries.keys c.makeRoom.entries).Nodup := by
      obtain ⟨p, hp⟩ := c.makeRoom_entries
      rw [hp]
      exact Entries.nodup_keys_filter hc _
    have hnew : k ∉ Entries.keys c.makeRoom.entries := by
      rw [Entries.mem_keys_iff, lookup_makeRoom_of_none hc h]
      exact Bool.false_ne_true
    rw [put_of_none h, Distinct, Entries.keys, List.map_append]
    refine List.nodup_append.2 ⟨hroom, List.nodup_singleton k, fun a ha b hb hab ↦ hnew ?_⟩
    obtain rfl := List.mem_singleton.1 hb
    exact hab ▸ ha

/-! ### What is cached -/

/-- A hit changes no value. -/
theorem get_hit : get? (c.hit k now) k' = c.get? k' := by
  rw [get?, entry_hit]
  split_ifs with hk
  · rw [hk, get?]
    cases c.entry? k <;> rfl
  · rfl

/-- A value that is written is what is cached. -/
theorem get_put_self (hc : c.Distinct) (value : α) : get? (c.put k value now) k = some value := by
  rw [get?, entry_put_self hc, Option.map_some, written]
  cases c.entry? k <;> rfl

/-- What is cached after a value was written is that value, or was cached before. -/
theorem get_of_put (hc : c.Distinct) {a value : α} (h : get? (c.put k value now) k' = some a) :
    k' = k ∧ a = value ∨ k' ≠ k ∧ c.get? k' = some a := by
  by_cases hk : k' = k
  · rw [hk, get_put_self hc] at h
    exact .inl ⟨hk, (Option.some.inj h).symm⟩
  · refine .inr ⟨hk, ?_⟩
    rw [get?] at h ⊢
    rw [entry_put_of_ne hc hk value] at h
    split_ifs at h
    · cases h
    · exact h

/-- What is cached after a name was dropped is of another name, and was cached before. -/
theorem get_of_remove (hc : c.Distinct) {a : α} (h : get? (c.remove k) k' = some a) :
    k' ≠ k ∧ c.get? k' = some a := by
  rw [get?, entry_remove hc] at h
  split_ifs at h with hk
  · cases h
  · exact ⟨hk, h⟩

end FrequencyCache

end GraphSession
