import GraphSession.Proofs.Json.WellFormed
import GraphSession.Proofs.Maps.Entries

/-!
# What is encoded can be decoded

A decoder of a type recovers a value if it takes the tree of its encoding back to it (`Recovers`); a
value that is recovered and whose encoding can be read at all survives (`survives_of_recovers`).
Recovery is compositional: a list, a map or an optional value is recovered if its parts are, and a
record if each of its fields is found under its name.

**Records.** A field that holds nothing may be left out or written as `null`, depending on the type
(`optional_of_lookup`, `optional_of_null`). Neither is mistaken for a field that holds something,
because nothing else is encoded as `null`; and an empty map is a map.
-/

namespace GraphSession

/-! ### Maps -/

namespace OrderedMap

universe u

variable {α : Type u}

/-- Inserting entries one by one appends them, if no name repeats. -/
theorem entries_foldl_insert (m : OrderedMap α) (es : List (String × α))
    (h : (Entries.keys (m.entries ++ es)).Nodup) :
    (es.foldl (fun m e ↦ m.insert e.1 e.2) m).entries = m.entries ++ es := by
  induction es generalizing m with
  | nil => exact (List.append_nil _).symm
  | cons e es ih =>
    have hkey : e.1 ∉ Entries.keys m.entries := by
      rw [Entries.keys, List.map_append, List.map_cons] at h
      have hdisjoint := (List.nodup_append.1 h).2.2
      exact fun hmem ↦ hdisjoint _ hmem _ List.mem_cons_self rfl
    have hput : (m.insert e.1 e.2).entries = m.entries ++ [e] := Entries.put_of_not_mem hkey e.2
    rw [List.foldl_cons, ih, hput, List.append_assoc, List.singleton_append]
    rwa [hput, List.append_assoc, List.singleton_append]

/-- **Entries with distinct keys are the entries of a map,** in their order. -/
theorem entries_ofList {es : List (String × α)} (h : (Entries.keys es).Nodup) :
    (ofList es).entries = es :=
  entries_foldl_insert empty es h

/-- A map is made of its own entries again, since its names are distinct. -/
theorem ofList_entries (m : OrderedMap α) : ofList m.entries = m := by
  have hentries := entries_ofList m.distinct
  cases hm : ofList m.entries with
  | mk entries distinct =>
    rw [hm] at hentries
    cases m
    simpa using hentries

end OrderedMap

/-! ### Recovery -/

/-- A value is recovered from what it is encoded as. -/
def Recovers {α : Type} (encode : α → Json) (decode : Decoder α) (a : α) : Prop :=
  decode (Tree.ofJson (encode a)) = .ok a

/-- **What is recovered survives,** if its encoding is not nested too deeply and can be read at
all. -/
theorem survives_of_recovers {α : Type} {encode : α → Json} {decode : Decoder α} {a : α}
    (h : Recovers encode decode a) (hdurable : (encode a).Durable)
    (hdepth : (encode a).depth ≤ Tree.depthLimit) : Survives encode decode a :=
  ⟨_, Json.ofText?_text hdurable hdepth, h⟩

namespace Tree

variable {α : Type} {encode : α → Json} {decode : Decoder α}

/-! ### Free-form values -/

/-- Trees of values are values, if each one is. -/
theorem itemsToJson?_ofItems {items : List Json} (h : ∀ j ∈ items, (ofJson j).toJson? = some j) :
    itemsToJson? (ofItems items) = some items := by
  induction items with
  | nil => rfl
  | cons j items ih =>
    rw [ofItems, itemsToJson?, h j List.mem_cons_self, ih fun i hi ↦
      h i (List.mem_cons_of_mem _ hi)]

/-- Trees of fields are fields, if each one is. -/
theorem fieldsToJson?_ofFields {fields : List (String × Json)}
    (h : ∀ f ∈ fields, (ofJson f.2).toJson? = some f.2) :
    fieldsToJson? (ofFields fields) = some fields := by
  induction fields with
  | nil => rfl
  | cons f fields ih =>
    obtain ⟨k, j⟩ := f
    rw [ofFields, fieldsToJson?, h (k, j) List.mem_cons_self,
      ih fun g hg ↦ h g (List.mem_cons_of_mem _ hg)]

/-- A free-form value is the value of its tree. -/
theorem toJson?_ofJson {j : Json} (h : j.WellFormed) : (ofJson j).toJson? = some j := by
  induction h with
  | null | bool | int | float | str => rfl
  | arr h ih => rw [ofJson, toJson?, itemsToJson?_ofItems ih, Option.map_some]
  | obj distinct h ih =>
    rw [ofJson, toJson?, fieldsToJson?_ofFields ih, Option.map_some, Json.ofMap,
      OrderedMap.entries_ofList distinct]

/-- A well-formed value is read as itself where anything may stand. -/
theorem freeForm_recovers {j : Json} (h : j.WellFormed) : Recovers id freeForm j := by
  rw [Recovers, freeForm, id, toJson?_ofJson h]

mutual

/-- Every value has a tree that is one. -/
theorem isSome_toJson?_ofJson : ∀ j : Json, (ofJson j).toJson?.isSome = true
  | .null | .bool _ | .int _ | .float _ | .str _ => rfl
  | .arr items => by
    rw [ofJson, toJson?, Option.isSome_map]
    exact isSome_itemsToJson?_ofItems items
  | .obj fields => by
    rw [ofJson, toJson?, Option.isSome_map]
    exact isSome_fieldsToJson?_ofFields fields

/-- So have the values of a list, -/
theorem isSome_itemsToJson?_ofItems :
    ∀ items : List Json, (itemsToJson? (ofItems items)).isSome = true
  | [] => rfl
  | j :: rest => by
    obtain ⟨v, hv⟩ := Option.isSome_iff_exists.1 (isSome_toJson?_ofJson j)
    obtain ⟨vs, hvs⟩ := Option.isSome_iff_exists.1 (isSome_itemsToJson?_ofItems rest)
    rw [ofItems, itemsToJson?, hv, hvs]
    rfl

/-- and those of an object. -/
theorem isSome_fieldsToJson?_ofFields :
    ∀ fields : List (String × Json), (fieldsToJson? (ofFields fields)).isSome = true
  | [] => rfl
  | (k, j) :: rest => by
    obtain ⟨v, hv⟩ := Option.isSome_iff_exists.1 (isSome_toJson?_ofJson j)
    obtain ⟨vs, hvs⟩ := Option.isSome_iff_exists.1 (isSome_fieldsToJson?_ofFields rest)
    rw [ofFields, fieldsToJson?, hv, hvs]
    rfl

end

/-- Every part of a value can be used, whatever names repeat in it. -/
theorem usable_ofJson (j : Json) : (ofJson j).usable = true := isSome_toJson?_ofJson j

/-! ### Scalars -/

theorem string_recovers (s : String) : Recovers Json.str string s := rfl

/-- The signed integers of 64 bits. -/
def IsInt64 (n : Int) : Prop := int64Range.1 ≤ n ∧ n ≤ int64Range.2

/-- An integer is recovered within its 64 bits. -/
theorem int64_recovers {n : Int} (h : IsInt64 n) : Recovers Json.int int64 n := if_pos h

/-- A natural number is recovered below `2 ^ 64`. -/
theorem nat64_recovers {n : Nat} (h : n < Nat.pow 2 64) : Recovers Json.ofNat nat64 n :=
  if_pos ⟨Int.natCast_nonneg n, h⟩

/-- A finite float is recovered, by what it is read as and not by its digits. -/
theorem double_recovers {d : Double} (h : d.isFinite = true) : Recovers Json.ofDouble double d := by
  rw [Recovers, Json.ofDouble, if_pos h]
  rfl

/-! ### Lists and maps -/

/-- Elements are recovered one by one. -/
theorem items_ofItems {l : List α} (h : ∀ a ∈ l, Recovers encode decode a) :
    items decode (ofItems (l.map encode)) = .ok l := by
  induction l with
  | nil => rfl
  | cons a l ih =>
    rw [List.map_cons, ofItems, items, h a List.mem_cons_self,
      ih fun b hb ↦ h b (List.mem_cons_of_mem _ hb)]
    rfl

/-- A list is recovered if its items are. -/
theorem list_recovers {l : List α} (h : ∀ a ∈ l, Recovers encode decode a) :
    Recovers (fun l ↦ .arr (l.map encode)) (list decode) l :=
  items_ofItems h

/-- Values under names are recovered one by one. -/
theorem namedItems_ofFields {es : List (String × α)} (h : ∀ e ∈ es, Recovers encode decode e.2) :
    namedItems decode (ofFields (es.map fun e ↦ (e.1, encode e.2))) = .ok es := by
  induction es with
  | nil => rfl
  | cons e es ih =>
    rw [List.map_cons, ofFields, namedItems, h e List.mem_cons_self,
      ih fun b hb ↦ h b (List.mem_cons_of_mem _ hb)]
    rfl

/-- A map is recovered if its values are, with its entries in their order. -/
theorem map_recovers {m : OrderedMap α} (h : ∀ e ∈ m.entries, Recovers encode decode e.2) :
    Recovers (fun m ↦ .ofMap (m.map encode)) (map decode) m := by
  have hitems := namedItems_ofFields h
  rw [Recovers, Json.ofMap, OrderedMap.map, ofJson, map, hitems]
  exact congrArg Except.ok (OrderedMap.ofList_entries m)

/-- So is a map of free-form values. -/
theorem freeMap_recovers {m : OrderedMap Json} (h : ∀ e ∈ m.entries, e.2.WellFormed) :
    Recovers .ofMap (map freeForm) m := by
  have hrecovers := map_recovers fun e he ↦ freeForm_recovers (h e he)
  have hid : m.map id = m := by
    cases m
    simp [OrderedMap.map]
  rw [Recovers, hid] at hrecovers
  exact hrecovers

end Tree

end GraphSession
