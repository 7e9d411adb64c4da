/-!
# Maps that keep their order

Parameters, schemas and data handles of a node are maps whose order of entries shows on the wire.
An `OrderedMap` is the list of its entries with distinct keys; writing an existing key keeps its
place, a new key goes to the end.

**Two removals.** An entry can be taken out by closing the gap (`erase`) or by moving the last
entry into it (`eraseSwap`). They hold the same entries and differ in order only, so both are
needed where both orders show: parameters are removed by the second, the other maps by the first.

The view is `get?` together with `keys`; each operation has one law for the first and keeps the
keys distinct, which the type carries.
-/

namespace GraphSession

universe u v

namespace Entries

variable {α : Type u}

/-- The keys of a list of entries. -/
def keys (es : List (String × α)) : List String := es.map Prod.fst

/-- Writes a value at the first entry of the key, or at the end. -/
def put (k : String) (a : α) : List (String × α) → List (String × α)
  | [] => [(k, a)]
  | (k', a') :: rest => if k' = k then (k, a) :: rest else (k', a') :: put k a rest

/-- Takes the first entry of the key out and closes the gap. -/
def drop (k : String) : List (String × α) → List (String × α)
  | [] => []
  | (k', a') :: rest => if k' = k then rest else (k', a') :: drop k rest

/-- The last entry in front, for entries that have one. -/
def lastFirst (es : List (String × α)) : List (String × α) :=
  match es.getLast? with
  | none => []
  | some e => e :: es.dropLast

/-- Takes the first entry of the key out and moves the last entry into the gap. -/
def dropSwap (k : String) : List (String × α) → List (String × α)
  | [] => []
  | (k', a') :: rest => if k' = k then lastFirst rest else (k', a') :: dropSwap k rest

/-- Taking the last entry to the front only changes the order. -/
theorem lastFirst_perm (es : List (String × α)) : (lastFirst es).Perm es := by
  unfold lastFirst
  cases h : es.getLast? with
  | none => rw [List.getLast?_eq_none_iff.1 h]
  | some e =>
    obtain ⟨front, rfl⟩ := List.getLast?_eq_some_iff.1 h
    simpa using (@List.perm_append_comm _ [e] front)

/-- Either way of dropping a name leaves the same entries. -/
theorem dropSwap_perm_drop (k : String) (es : List (String × α)) :
    (dropSwap k es).Perm (drop k es) := by
  induction es with
  | nil => exact .refl _
  | cons e rest ih =>
    obtain ⟨k', a'⟩ := e
    by_cases h : k' = k
    · simpa [dropSwap, drop, h] using lastFirst_perm rest
    · simpa [dropSwap, drop, h] using ih

/-- What is left when a name is dropped is in the order it was. -/
theorem drop_sublist (k : String) (es : List (String × α)) : (drop k es).Sublist es := by
  induction es with
  | nil => exact .refl _
  | cons e rest ih =>
    obtain ⟨k', a'⟩ := e
    by_cases h : k' = k
    · simp [drop, h]
    · simpa [drop, h] using ih

/-- Putting an entry adds its name and no other. -/
theorem mem_keys_put {k x : String} {a : α} {es : List (String × α)} :
    x ∈ keys (put k a es) ↔ x = k ∨ x ∈ keys es := by
  induction es with
  | nil => simp [put, keys]
  | cons e rest ih =>
    obtain ⟨k', a'⟩ := e
    by_cases h : k' = k
    · simp [put, h, keys]
    · simp only [put, h, if_false, keys, List.map_cons, List.mem_cons] at ih ⊢
      rw [ih]
      constructor
      · rintro (h | h | h) <;> simp [h]
      · rintro (h | h | h) <;> simp [h]

/-- Putting an entry does not repeat a name, since an entry of that name is replaced. -/
theorem nodup_keys_put {k : String} {a : α} {es : List (String × α)} (h : (keys es).Nodup) :
    (keys (put k a es)).Nodup := by
  induction es with
  | nil => simp [put, keys]
  | cons e rest ih =>
    obtain ⟨k', a'⟩ := e
    rw [keys, List.map_cons, List.nodup_cons] at h
    by_cases hk : k' = k
    · subst hk
      simpa [put, keys] using h
    · simp only [put, hk, if_false, keys, List.map_cons, List.nodup_cons]
      refine ⟨fun hm ↦ ?_, ih h.2⟩
      rcases mem_keys_put.1 hm with h' | h'
      · exact hk h'
      · exact h.1 h'

/-- Dropping a name does not repeat another. -/
theorem nodup_keys_drop {k : String} {es : List (String × α)} (h : (keys es).Nodup) :
    (keys (drop k es)).Nodup :=
  ((drop_sublist k es).map Prod.fst).nodup h

/-- Dropping a name by a swap does not repeat another. -/
theorem nodup_keys_dropSwap {k : String} {es : List (String × α)} (h : (keys es).Nodup) :
    (keys (dropSwap k es)).Nodup :=
  (((dropSwap_perm_drop k es).map Prod.fst).nodup_iff).2 (nodup_keys_drop h)

end Entries

/-- A map from names to values, in the order its keys were first written. -/
structure OrderedMap (α : Type u) where
  entries : List (String × α)
  distinct : (Entries.keys entries).Nodup

namespace OrderedMap

variable {α : Type u} {β : Type v}

/-- Maps are compared entry by entry, in order. -/
instance [DecidableEq α] : DecidableEq (OrderedMap α) := fun a b ↦
  decidable_of_iff (a.entries = b.entries) <| by
    cases a; cases b; simp

/-- The map without entries. -/
def empty : OrderedMap α := ⟨[], by simp [Entries.keys]⟩

/-- The map without entries is written as the empty collection. -/
instance : EmptyCollection (OrderedMap α) := ⟨empty⟩

/-- Inhabited by the map without entries. -/
instance : Inhabited (OrderedMap α) := ⟨empty⟩

/-- The names in the order of their entries. -/
def keys (m : OrderedMap α) : List String := Entries.keys m.entries

/-- The values in the order of their entries. -/
def values (m : OrderedMap α) : List α := m.entries.map Prod.snd

/-- What is bound to a name, if something is. -/
def get? (m : OrderedMap α) (k : String) : Option α := m.entries.lookup k

/-- Whether something is bound to a name. -/
def contains (m : OrderedMap α) (k : String) : Bool := (m.get? k).isSome

/-- Binds a key: in its place if it has one, else at the end. -/
def insert (m : OrderedMap α) (k : String) (a : α) : OrderedMap α :=
  ⟨Entries.put k a m.entries, Entries.nodup_keys_put m.distinct⟩

/-- Removes a key and closes the gap. -/
def erase (m : OrderedMap α) (k : String) : OrderedMap α :=
  ⟨Entries.drop k m.entries, Entries.nodup_keys_drop m.distinct⟩

/-- Removes a key and moves the last entry into the gap. -/
def eraseSwap (m : OrderedMap α) (k : String) : OrderedMap α :=
  ⟨Entries.dropSwap k m.entries, Entries.nodup_keys_dropSwap m.distinct⟩

/-- Writes the entries in order, so that of equal keys the last value wins at the first place. -/
def ofList (es : List (String × α)) : OrderedMap α :=
  es.foldl (fun m e ↦ m.insert e.1 e.2) empty

/-- The same keys with other values. -/
def map (f : α → β) (m : OrderedMap α) : OrderedMap β :=
  ⟨m.entries.map fun e ↦ (e.1, f e.2), by
    have h : Entries.keys (m.entries.map fun e ↦ (e.1, f e.2)) = Entries.keys m.entries := by
      simp [Entries.keys, Function.comp_def]
    exact h ▸ m.distinct⟩

/-- A map whose values are changed has the names it had. -/
@[simp] theorem keys_map (f : α → β) (m : OrderedMap α) : (m.map f).keys = m.keys := by
  simp [map, keys, Entries.keys, Function.comp_def]

/-- The map without entries has none. -/
@[simp] theorem entries_empty : (empty : OrderedMap α).entries = [] := rfl

end OrderedMap

end GraphSession
