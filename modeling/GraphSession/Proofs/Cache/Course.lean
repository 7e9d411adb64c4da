import GraphSession.Proofs.Cache.Entries

/-!
# Whatever happens to a cache

A history is a list of moves, each with the time at which it is made, and a cache goes through a
history move by move (`FrequencyCache.run`). A read that may have to fetch is two moves, so that
anything may happen between them, and reads of several callers may overlap.

**One name, one move** (`FrequencyCache.entry_after`). A move calls for at most one name
(`CacheMove.name?`), and which names it takes out is told by the move and the cache before it
(`CacheMove.Drops`): a removed name, every name, what a sweep does not keep, or the one that has to
go for a new one. A name that is dropped has no entry afterwards. The entry of any other name is
renewed if the move calls for it, and left alone if not. Everything about histories of a name rests
on this.

An entry that has to go for a new one might as well be removed just before, so a history with such a
removal in it is one of a cache that chooses differently between entries that are equal in uses and
time.
-/

namespace GraphSession

universe u

/-- What may happen to a cache. -/
inductive CacheMove (α ε : Type u) where
  | put (k : String) (value : α)
  | hit (k : String)
  /-- The value, the entry or its uses are read, or whether there is one. -/
  | look (k : String)
  | beginFetch (k : String)
  | endFetch (k : String) (outcome : Except ε α)
  | remove (k : String)
  | clear
  | sweep (keep : String → Bool)

/-- Moves in order, each with its time. -/
abbrev CacheHistory (α ε : Type u) := List (Nat × CacheMove α ε)

namespace CacheMove

variable {α ε : Type u}

/-- What a move makes of a cache. -/
def after (c : FrequencyCache α) (now : Nat) : CacheMove α ε → FrequencyCache α
  | put k value => c.put k value now
  | hit k => c.hit k now
  | look _ => c
  | beginFetch k => (c.beginFetch k now).2
  | endFetch k outcome => c.endFetch k outcome now
  | remove k => c.remove k
  | clear => c.clear
  | sweep keep => c.sweep keep now

/-- The name that a move calls for, as it uses what is cached under it or writes a value there. -/
def name? : CacheMove α ε → Option String
  | put k _ | hit k | beginFetch k | endFetch k (.ok _) => some k
  | look _ | endFetch _ (.error _) | remove _ | clear | sweep _ => none

/-- The value that a move writes. -/
def value? : CacheMove α ε → Option α
  | put _ value | endFetch _ (.ok value) => some value
  | hit _ | beginFetch _ | look _ | endFetch _ (.error _) | remove _ | clear | sweep _ => none

/-- What a move makes of the entry of the name that it calls for. -/
def renewed (m : CacheMove α ε) (now : Nat) (e? : Option (CacheEntry α)) : Option (CacheEntry α) :=
  match m.value? with
  | some value => some (FrequencyCache.written value now e?)
  | none => e?.map fun e ↦ e.touch now

/-- A move takes the entry of a name out: the name is one of those to be dropped, or a new one is
written into a full cache and this is the one that has to go first. -/
def Drops (c : FrequencyCache α) (now : Nat) (k : String) : CacheMove α ε → Prop
  | remove k' => k' = k
  | clear => True
  | sweep keep => keep k = false ∨ ∃ e, c.entry? k = some e ∧ c.isStale now e = true
  | put k' _ | endFetch k' (.ok _) =>
    k' ≠ k ∧ c.contains k' = false ∧ c.capacity ≤ c.size ∧ FrequencyCache.victim? c.entries = some k
  | hit _ | look _ | beginFetch _ | endFetch _ (.error _) => False

/-- What is written makes an entry, and what is only called for has one if it had one before. -/
theorem isSome_renewed (m : CacheMove α ε) (now : Nat) (e? : Option (CacheEntry α)) :
    (m.renewed now e?).isSome = (m.value?.isSome || e?.isSome) := by
  rw [renewed]
  cases m.value? with
  | none => rw [Option.isSome_map, Option.isSome_none, Bool.false_or]
  | some value => rfl

/-- No move drops the name that it calls for. -/
theorem not_drops_of_name? {c : FrequencyCache α} {now : Nat} {k : String} {m : CacheMove α ε}
    (hk : m.name? = some k) : ¬ m.Drops c now k := by
  intro hdrops
  cases m with
  | put k' value => exact hdrops.1 (Option.some.inj hk)
  | endFetch k' outcome =>
    cases outcome with
    | error e => exact hdrops
    | ok value => exact hdrops.1 (Option.some.inj hk)
  | hit k' | beginFetch k' => exact hdrops
  | look k' | remove k' | clear | sweep keep => cases hk

end CacheMove

namespace FrequencyCache

variable {α ε : Type u} {c : FrequencyCache α} {k : String} {now : Nat}

/-- What a history makes of a cache. -/
def run (c : FrequencyCache α) (hs : CacheHistory α ε) : FrequencyCache α :=
  hs.foldl (fun c h ↦ h.2.after c h.1) c

/-- The last move of a history acts on what the others have made of the cache. -/
theorem run_concat (hs : CacheHistory α ε) (h : Nat × CacheMove α ε) :
    c.run (hs ++ [h]) = h.2.after (c.run hs) h.1 :=
  List.foldl_concat _ _ _ _

/-! ### Names stay distinct -/

/-- A move keeps names distinct. -/
theorem Distinct.after (hc : c.Distinct) (m : CacheMove α ε) : (m.after c now).Distinct := by
  cases m with
  | put k value => exact hc.put value
  | hit k => exact hc.modify _
  | look k => exact hc
  | beginFetch k =>
    rw [CacheMove.after, beginFetch_snd]
    exact hc.modify _
  | endFetch k outcome =>
    cases outcome with
    | error e => exact hc
    | ok value => exact hc.put value
  | remove k | sweep keep => exact Entries.nodup_keys_filter hc _
  | clear => exact List.nodup_nil

/-- A history keeps names distinct. -/
theorem Distinct.run (hc : c.Distinct) (hs : CacheHistory α ε) : (c.run hs).Distinct := by
  induction hs generalizing c with
  | nil => exact hc
  | cons h rest ih => exact ih (hc.after h.2)

/-! ### Bounds stay as they are -/

/-- Writing a value changes neither bound. -/
theorem bounds_put (value : α) :
    (c.put k value now).capacity = c.capacity ∧ (c.put k value now).basic = c.basic := by
  unfold put
  split <;> exact ⟨rfl, rfl⟩

/-- No move changes how many entries there may be or how long they may stay. -/
theorem bounds_after (m : CacheMove α ε) :
    (m.after c now).capacity = c.capacity ∧ (m.after c now).basic = c.basic := by
  cases m with
  | put k value => exact bounds_put value
  | hit k | look k | remove k | clear | sweep keep => exact ⟨rfl, rfl⟩
  | beginFetch k =>
    rw [CacheMove.after, beginFetch_snd]
    exact ⟨rfl, rfl⟩
  | endFetch k outcome =>
    cases outcome with
    | error e => exact ⟨rfl, rfl⟩
    | ok value => exact bounds_put value

/-- No history changes how many entries there may be or how long they may stay. -/
theorem bounds_run (hs : CacheHistory α ε) :
    (c.run hs).capacity = c.capacity ∧ (c.run hs).basic = c.basic := by
  induction hs generalizing c with
  | nil => exact ⟨rfl, rfl⟩
  | cons h rest ih =>
    have hafter : (h.2.after c h.1).capacity = c.capacity ∧ (h.2.after c h.1).basic = c.basic :=
      bounds_after h.2
    obtain ⟨hcapacity, hbasic⟩ := ih (c := h.2.after c h.1)
    exact ⟨hcapacity.trans hafter.1, hbasic.trans hafter.2⟩

/-! ### One move -/

/-- The case of a value that is written, now or when a fetch has ended. -/
theorem entry_after_put (hc : c.Distinct) (k' : String) (value : α) :
    (k' ≠ k ∧ c.contains k' = false ∧ c.capacity ≤ c.size ∧ victim? c.entries = some k) ∧
        entry? (c.put k' value now) k = none ∨
      ¬ (k' ≠ k ∧ c.contains k' = false ∧ c.capacity ≤ c.size ∧ victim? c.entries = some k) ∧
        entry? (c.put k' value now) k =
          if some k' = some k then some (written value now (c.entry? k)) else c.entry? k := by
  by_cases hk : k = k'
  · subst hk
    exact .inr ⟨fun h ↦ h.1 rfl, by rw [if_pos rfl, entry_put_self hc]⟩
  · rw [if_neg fun h ↦ hk (Option.some.inj h).symm, entry_put_of_ne hc hk]
    by_cases hgo : c.contains k' = false ∧ c.capacity ≤ c.size ∧ victim? c.entries = some k
    · exact .inl ⟨⟨Ne.symm hk, hgo⟩, if_pos hgo⟩
    · exact .inr ⟨fun h ↦ hgo h.2, if_neg hgo⟩

/-- The case of a use, by a hit or by a read that begins. -/
theorem entry_after_hit (k' : String) :
    entry? (c.hit k' now) k =
      if some k' = some k then (c.entry? k).map fun e ↦ e.touch now else c.entry? k := by
  rw [entry_hit]
  by_cases hk : k = k'
  · rw [hk, if_pos rfl, if_pos rfl]
  · rw [if_neg hk, if_neg fun h ↦ hk (Option.some.inj h).symm]

/-- **One move and one name**: if the move drops the name there is no entry afterwards. Otherwise
the entry is renewed if the move calls for it, and left alone if not. -/
theorem entry_after (hc : c.Distinct) (m : CacheMove α ε) (now : Nat) :
    m.Drops c now k ∧ entry? (m.after c now) k = none ∨
      ¬ m.Drops c now k ∧ entry? (m.after c now) k =
        if m.name? = some k then m.renewed now (c.entry? k) else c.entry? k := by
  cases m with
  | put k' value => exact entry_after_put hc k' value
  | hit k' => exact .inr ⟨not_false, entry_after_hit k'⟩
  | look k' => exact .inr ⟨not_false, rfl⟩
  | beginFetch k' =>
    rw [CacheMove.after, beginFetch_snd]
    exact .inr ⟨not_false, entry_after_hit k'⟩
  | endFetch k' outcome =>
    cases outcome with
    | error e => exact .inr ⟨not_false, rfl⟩
    | ok value => exact entry_after_put hc k' value
  | remove k' =>
    have hremove : entry? (c.remove k') k = if k = k' then none else c.entry? k := entry_remove hc
    by_cases hk : k' = k
    · exact .inl ⟨hk, hremove.trans (if_pos hk.symm)⟩
    · exact .inr ⟨hk, hremove.trans (if_neg fun h ↦ hk h.symm)⟩
  | clear => exact .inl ⟨trivial, rfl⟩
  | sweep keep =>
    by_cases hdrop : keep k = false ∨ ∃ e, c.entry? k = some e ∧ c.isStale now e = true
    · exact .inl ⟨hdrop, entry_sweep_eq_none hc hdrop⟩
    · exact .inr ⟨hdrop, entry_sweep_eq_self hc hdrop⟩

/-- **What is cached after a move** is what it writes, and what was cached before and is not
dropped. -/
theorem contains_after_iff (hc : c.Distinct) (m : CacheMove α ε) (now : Nat) :
    (m.after c now).contains k = true ↔
      m.name? = some k ∧ m.value?.isSome = true ∨ c.contains k = true ∧ ¬ m.Drops c now k := by
  rcases entry_after (k := k) hc m now with ⟨hdrops, hnone⟩ | ⟨hdrops, hsame⟩
  · have hname : m.name? ≠ some k := fun hk ↦ CacheMove.not_drops_of_name? hk hdrops
    simp [contains, hnone, hname, hdrops]
  · rw [contains, hsame]
    by_cases hk : m.name? = some k
    · simp [contains, hk, hdrops, CacheMove.isSome_renewed]
    · simp [contains, hk, hdrops]

end FrequencyCache

end GraphSession
