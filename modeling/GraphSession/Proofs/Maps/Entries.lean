import Mathlib.Data.List.Nodup
import GraphSession.OrderedMap

/-!
# Entries and maps, name by name

What an operation on a list of entries does is said by what is found under each name afterwards, and
by the names in their order. With distinct names the two determine the list, so an ordered map is
known by them (`OrderedMap.ext_get?`), and a description by them fits one map alone:
`OrderedMap.Binds` for a name that is bound, `OrderedMap.Unbinds` for one that is removed.

**Two orders.** The two ways to remove a name leave the same under every name, and differ in the
names: one closes the gap, the other one fills it with the last name (`fillGap`).
-/

namespace GraphSession

universe u v

namespace Entries

variable {α : Type u} {es es' : List (String × α)} {k k' : String} {a : α}

/-- A name is one of the names exactly if something is found under it. -/
theorem mem_keys_iff : k ∈ keys es ↔ (es.lookup k).isSome := by
  rw [List.lookup_isSome_iff, keys, List.mem_map]
  exact exists_congr fun e ↦ and_congr_right fun _ ↦ eq_comm.trans beq_iff_eq.symm

theorem lookup_eq_none_of_not_mem (h : k ∉ keys es) : es.lookup k = none :=
  Option.not_isSome_iff_eq_none.1 fun hsome ↦ h (mem_keys_iff.2 hsome)

theorem mem_of_lookup (h : es.lookup k = some a) : (k, a) ∈ es := by
  obtain ⟨front, back, rfl, -⟩ := List.lookup_eq_some_iff.1 h
  exact List.mem_append_right _ List.mem_cons_self

/-- With distinct names what is found is what is there. -/
theorem lookup_eq_some_iff (h : (keys es).Nodup) : es.lookup k = some a ↔ (k, a) ∈ es := by
  refine ⟨mem_of_lookup, fun hmem ↦ ?_⟩
  obtain ⟨b, hb⟩ := Option.isSome_iff_exists.1 (mem_keys_iff.1 (List.mem_map_of_mem hmem))
  have hsame : (k, b) = (k, a) := List.inj_on_of_nodup_map h (mem_of_lookup hb) hmem rfl
  rw [hb, (Prod.mk.inj hsame).2]

/-- What is found under a name does not depend on the order, if no name repeats. -/
theorem lookup_of_perm (hperm : es.Perm es') (h : (keys es).Nodup) (k : String) :
    es.lookup k = es'.lookup k := by
  have h' : (keys es').Nodup := (hperm.map Prod.fst).nodup_iff.1 h
  refine Option.ext fun a ↦ ?_
  rw [lookup_eq_some_iff h, lookup_eq_some_iff h', hperm.mem_iff]

/-- Changing all values changes what is found. -/
theorem lookup_map {β : Type v} (f : α → β) (es : List (String × α)) (k : String) :
    (es.map fun e ↦ (e.1, f e.2)).lookup k = (es.lookup k).map f := by
  induction es with
  | nil => rfl
  | cons e rest ih =>
    rw [List.map_cons, List.lookup_cons, List.lookup_cons, ih]
    split <;> rfl

/-! ### Writing -/

theorem lookup_cons_of_ne (h : k' ≠ k) (a : α) (es : List (String × α)) :
    ((k, a) :: es).lookup k' = es.lookup k' := by
  rw [List.lookup_cons, beq_eq_false_iff_ne.2 h]

/-- Putting an entry changes what is found under its name, and nothing else. -/
theorem lookup_put (k k' : String) (a : α) (es : List (String × α)) :
    (put k a es).lookup k' = if k' = k then some a else es.lookup k' := by
  induction es with
  | nil =>
    by_cases hk : k' = k
    · simp [put, hk]
    · rw [put, lookup_cons_of_ne hk, if_neg hk]
  | cons e rest ih =>
    obtain ⟨name, b⟩ := e
    by_cases hname : name = k
    · subst hname
      by_cases hk : k' = name
      · simp [put, hk]
      · rw [put, if_pos rfl, lookup_cons_of_ne hk, lookup_cons_of_ne hk, if_neg hk]
    · rw [put, if_neg hname]
      by_cases hk : k' = name
      · subst hk
        simp [hname]
      · rw [lookup_cons_of_ne hk, lookup_cons_of_ne hk, ih]

/-- An entry that is replaced keeps its place among the names. -/
theorem keys_put_of_mem (h : k ∈ keys es) (a : α) : keys (put k a es) = keys es := by
  induction es with
  | nil => exact absurd h List.not_mem_nil
  | cons e rest ih =>
    obtain ⟨name, b⟩ := e
    by_cases hname : name = k
    · rw [put, if_pos hname, keys, keys, List.map_cons, List.map_cons, hname]
    · have hrest : k ∈ keys rest := (List.mem_cons.1 h).resolve_left (Ne.symm hname)
      rw [put, if_neg hname, keys, List.map_cons, ← keys, ih hrest, keys, keys, List.map_cons]

/-- A new name goes to the end. -/
theorem put_of_not_mem (h : k ∉ keys es) (a : α) : put k a es = es ++ [(k, a)] := by
  induction es with
  | nil => rfl
  | cons e es ih =>
    obtain ⟨k', a'⟩ := e
    rw [keys, List.map_cons, List.mem_cons, not_or] at h
    rw [put, if_neg (Ne.symm h.1), ih h.2, List.cons_append]

/-- A new entry comes last. -/
theorem keys_put_of_not_mem (h : k ∉ keys es) (a : α) : keys (put k a es) = keys es ++ [k] := by
  rw [put_of_not_mem h, keys, List.map_append]
  rfl

/-! ### Removing -/

/-- Dropping a name takes out what is found under it, and nothing else. -/
theorem lookup_drop (h : (keys es).Nodup) (k k' : String) :
    (drop k es).lookup k' = if k' = k then none else es.lookup k' := by
  induction es with
  | nil => simp [drop]
  | cons e rest ih =>
    obtain ⟨name, b⟩ := e
    obtain ⟨hnot, hrest⟩ := List.nodup_cons.1 h
    by_cases hname : name = k
    · subst hname
      rw [drop, if_pos rfl]
      by_cases hk : k' = name
      · rw [if_pos hk, hk, lookup_eq_none_of_not_mem hnot]
      · rw [if_neg hk, lookup_cons_of_ne hk]
    · rw [drop, if_neg hname]
      by_cases hk : k' = name
      · subst hk
        simp [hname]
      · rw [lookup_cons_of_ne hk, lookup_cons_of_ne hk, ih hrest]

/-- Dropping a name leaves the others in order. -/
theorem keys_drop (k : String) (es : List (String × α)) : keys (drop k es) = (keys es).erase k := by
  induction es with
  | nil => rfl
  | cons e rest ih =>
    obtain ⟨name, b⟩ := e
    by_cases hname : name = k
    · simp [drop, hname, keys]
    · simpa [drop, hname, keys] using ih

/-- The two removals leave the same under every name. -/
theorem lookup_dropSwap (h : (keys es).Nodup) (k k' : String) :
    (dropSwap k es).lookup k' = if k' = k then none else es.lookup k' :=
  (lookup_of_perm (dropSwap_perm_drop k es) (nodup_keys_dropSwap h) k').trans (lookup_drop h k k')

end Entries

/-- Names with one of them taken out and the last one moved to its place. -/
def fillGap (k : String) (names : List String) : List String :=
  match names.getLast? with
  | none => []
  | some last => if k ∈ names then (names.set (names.idxOf k) last).dropLast else names

/-- The last name fills the gap at the beginning. -/
theorem fillGap_cons_self (k : String) (names : List String) :
    fillGap k (k :: names) = names.getLast?.toList ++ names.dropLast := by
  rw [fillGap, List.getLast?_cons]
  rcases List.eq_nil_or_concat names with rfl | ⟨front, last, rfl⟩
    <;> simp [List.dropLast_cons_of_ne_nil]

/-- Before the gap the names stay. -/
theorem fillGap_cons_of_ne {k name : String} (h : name ≠ k) (names : List String) :
    fillGap k (name :: names) = name :: fillGap k names := by
  have hmem : k ∈ name :: names ↔ k ∈ names := List.mem_cons.trans (or_iff_right (Ne.symm h))
  have hplace : (name :: names).idxOf k = names.idxOf k + 1 := List.idxOf_cons_ne names h
  cases hlast : names.getLast? with
  | none =>
    obtain rfl := List.getLast?_eq_none_iff.1 hlast
    simp [fillGap, Ne.symm h]
  | some last =>
    have hne : names ≠ [] := fun hnil ↦ by simp [hnil] at hlast
    simp only [fillGap, List.getLast?_cons, hlast, Option.getD_some, hmem, hplace,
      List.set_cons_succ]
    split
    · exact List.dropLast_cons_of_ne_nil (by simpa using hne)
    · rfl

/-- Dropping by a swap puts the last name in the place of the dropped one. -/
theorem keys_dropSwap {α : Type u} (k : String) (es : List (String × α)) :
    Entries.keys (Entries.dropSwap k es) = fillGap k (Entries.keys es) := by
  induction es with
  | nil => rfl
  | cons e rest ih =>
    obtain ⟨name, b⟩ := e
    have hkeys : Entries.keys ((name, b) :: rest) = name :: Entries.keys rest := rfl
    rw [Entries.dropSwap, hkeys]
    by_cases hname : name = k
    · subst hname
      rw [if_pos rfl, fillGap_cons_self]
      rcases List.eq_nil_or_concat rest with rfl | ⟨front, last, rfl⟩ <;>
        simp [Entries.keys, Entries.lastFirst]
    · rw [if_neg hname, fillGap_cons_of_ne hname, ← ih]
      rfl

namespace OrderedMap

variable {α : Type u} {β : Type v} {m m' m'' : OrderedMap α} {k : String} {a : α}

/-- **Names and what is found under them** determine a map. -/
theorem ext_get? (hkeys : m'.keys = m.keys) (hget : ∀ k, m'.get? k = m.get? k) : m' = m := by
  have hentries (m : OrderedMap α) :
      m.entries.map (fun e ↦ (e.1, some e.2)) = m.keys.map fun k ↦ (k, m.get? k) := by
    rw [keys, Entries.keys, List.map_map]
    refine List.map_congr_left fun e he ↦ ?_
    rw [Function.comp_apply, get?, (Entries.lookup_eq_some_iff m.distinct).2 he]
  -- Names and lookups give the list of all pairs, and the pairs give the entries.
  have hinj : Function.Injective fun e : String × α ↦ (e.1, some e.2) := by
    rintro ⟨k, a⟩ ⟨k', a'⟩ h
    simpa using h
  have hsame : m'.entries = m.entries := by
    refine hinj.list_map ?_
    rw [hentries, hentries, hkeys]
    exact List.map_congr_left fun k _ ↦ by rw [hget]
  cases m
  cases m'
  cases hsame
  rfl

/-- A map with one name bound: a name that was there keeps its place, a new one goes to the end. -/
structure Binds (m : OrderedMap α) (k : String) (a : α) (m' : OrderedMap α) : Prop where
  get?_self : m'.get? k = some a
  get?_of_ne : ∀ x, x ≠ k → m'.get? x = m.get? x
  keys_of_mem : k ∈ m.keys → m'.keys = m.keys
  keys_of_not_mem : k ∉ m.keys → m'.keys = m.keys ++ [k]

/-- A map with one name removed, and the names that are left in the order that is given. -/
structure Unbinds (m : OrderedMap α) (k : String) (names : List String) (m' : OrderedMap α) :
    Prop where
  get?_self : m'.get? k = none
  get?_of_ne : ∀ x, x ≠ k → m'.get? x = m.get? x
  keys : m'.keys = names

/-- What is found after an insertion. -/
theorem get?_insert (m : OrderedMap α) (k x : String) (a : α) :
    (m.insert k a).get? x = if x = k then some a else m.get? x :=
  Entries.lookup_put k x a m.entries

/-- What is found after a removal. -/
theorem get?_erase (m : OrderedMap α) (k x : String) :
    (m.erase k).get? x = if x = k then none else m.get? x :=
  Entries.lookup_drop m.distinct k x

/-- What is found after a removal by a swap. -/
theorem get?_eraseSwap (m : OrderedMap α) (k x : String) :
    (m.eraseSwap k).get? x = if x = k then none else m.get? x :=
  Entries.lookup_dropSwap m.distinct k x

/-- Inserting over a name keeps the order of names. -/
theorem keys_insert_of_mem (h : k ∈ m.keys) (a : α) : (m.insert k a).keys = m.keys :=
  Entries.keys_put_of_mem h a

/-- Inserting a new name puts it last. -/
theorem keys_insert_of_not_mem (h : k ∉ m.keys) (a : α) : (m.insert k a).keys = m.keys ++ [k] :=
  Entries.keys_put_of_not_mem h a

/-- A removal leaves the other names in order. -/
theorem keys_erase (m : OrderedMap α) (k : String) : (m.erase k).keys = m.keys.filter (· ≠ k) := by
  rw [keys, erase, Entries.keys_drop, List.Nodup.erase_eq_filter m.distinct]
  exact List.filter_congr fun x _ ↦ by simp [bne, Bool.beq_eq_decide_eq]

/-- A removal by a swap moves the last name into the gap. -/
theorem keys_eraseSwap (m : OrderedMap α) (k : String) : (m.eraseSwap k).keys = fillGap k m.keys :=
  keys_dropSwap k m.entries

example : ((ofList [("a", 1), ("b", 2), ("c", 3)]).eraseSwap "a").keys = ["c", "b"] := by decide

/-- An insertion binds the name to the value. -/
theorem binds_insert (m : OrderedMap α) (k : String) (a : α) : m.Binds k a (m.insert k a) where
  get?_self := by rw [get?_insert, if_pos rfl]
  get?_of_ne x hx := by rw [get?_insert, if_neg hx]
  keys_of_mem h := keys_insert_of_mem h a
  keys_of_not_mem h := keys_insert_of_not_mem h a

/-- What binds a name to a value is told by the entries and their order. -/
theorem Binds.unique (h' : m.Binds k a m') (h'' : m.Binds k a m'') : m' = m'' := by
  refine ext_get? ?_ fun x ↦ ?_
  · by_cases hk : k ∈ m.keys
    · rw [h'.keys_of_mem hk, h''.keys_of_mem hk]
    · rw [h'.keys_of_not_mem hk, h''.keys_of_not_mem hk]
  · by_cases hx : x = k
    · rw [hx, h'.get?_self, h''.get?_self]
    · rw [h'.get?_of_ne x hx, h''.get?_of_ne x hx]

/-- A removal unbinds the name and keeps the order. -/
theorem unbinds_erase (m : OrderedMap α) (k : String) :
    m.Unbinds k (m.keys.filter (· ≠ k)) (m.erase k) where
  get?_self := by rw [get?_erase, if_pos rfl]
  get?_of_ne x hx := by rw [get?_erase, if_neg hx]
  keys := keys_erase m k

/-- A removal by a swap unbinds the name, and says what the order is then. -/
theorem unbinds_eraseSwap (m : OrderedMap α) (k : String) :
    m.Unbinds k (fillGap k m.keys) (m.eraseSwap k) where
  get?_self := by rw [get?_eraseSwap, if_pos rfl]
  get?_of_ne x hx := by rw [get?_eraseSwap, if_neg hx]
  keys := keys_eraseSwap m k

/-- What unbinds a name is told by the entries and their order. -/
theorem Unbinds.unique {names : List String} (h' : m.Unbinds k names m')
    (h'' : m.Unbinds k names m'') :
    m' = m'' := by
  refine ext_get? (h'.keys.trans h''.keys.symm) fun x ↦ ?_
  by_cases hx : x = k
  · rw [hx, h'.get?_self, h''.get?_self]
  · rw [h'.get?_of_ne x hx, h''.get?_of_ne x hx]

/-! ### Other values under the same names -/

theorem get?_map (f : α → β) (m : OrderedMap α) (k : String) :
    (m.map f).get? k = (m.get? k).map f :=
  Entries.lookup_map f m.entries k

/-- Changing values by an injective function loses nothing. -/
theorem map_injective {f : α → β} (hf : Function.Injective f) : Function.Injective (map f) := by
  intro m m' h
  refine ext_get? ?_ fun k ↦ ?_
  · rw [← keys_map f, h, keys_map]
  · refine Option.map_injective hf ?_
    rw [← get?_map, h, get?_map]

/-- Changing all values goes together with inserting one. -/
theorem map_insert (f : α → β) (m : OrderedMap α) (k : String) (a : α) :
    (m.insert k a).map f = (m.map f).insert k (f a) := by
  refine Binds.unique ⟨?_, fun x hx ↦ ?_, fun h ↦ ?_, fun h ↦ ?_⟩ (binds_insert (m.map f) k (f a))
  · rw [get?_map, get?_insert, if_pos rfl, Option.map_some]
  · rw [get?_map, get?_map, get?_insert, if_neg hx]
  · rw [keys_map] at h ⊢
    rw [keys_insert_of_mem h, keys_map]
  · rw [keys_map] at h ⊢
    rw [keys_insert_of_not_mem h, keys_map]

/-- Changing all values goes together with removing one. -/
theorem map_erase (f : α → β) (m : OrderedMap α) (k : String) :
    (m.erase k).map f = (m.map f).erase k := by
  refine Unbinds.unique ⟨?_, fun x hx ↦ ?_, ?_⟩ (unbinds_erase (m.map f) k)
  · rw [get?_map, get?_erase, if_pos rfl, Option.map_none]
  · rw [get?_map, get?_map, get?_erase, if_neg hx]
  · rw [keys_map, keys_map, keys_erase]

end OrderedMap

end GraphSession
