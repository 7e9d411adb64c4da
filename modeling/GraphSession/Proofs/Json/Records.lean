import Mathlib.Data.List.Nodup
import GraphSession.Proofs.Json.Decoding

/-!
# Records are recovered field by field

A record is written as an object whose names do not repeat, so its parts are those fields
(`record_ofJson`), and each field is found under its name. What a field has to hold to be recovered
depends on how it is asked for (`required_of_lookup`, `withDefault_of_lookup`, `optional_of_lookup`,
`optional_of_null`); where it stands among the others never matters.
-/

namespace GraphSession

/-! ### Names that do not repeat -/

/-- How often a name is given. -/
theorem Entries.length_filter_eq_count {α : Type} (es : List (String × α)) (k : String) :
    (es.filter fun e ↦ e.1 = k).length = (keys es).count k := by
  rw [keys, List.count, List.countP_map, List.countP_eq_length_filter]
  rfl

namespace Json

variable {α : Type} {name k : String} {encode : α → Json} {o : Option α}

/-- A field that is only written if there is something has its own name, or is not there. -/
theorem keys_fieldIfSome (name : String) (encode : α → Json) (o : Option α) :
    (Entries.keys (fieldIfSome name encode o)).Sublist [name] := by
  cases o with
  | none => exact List.nil_sublist _
  | some a => exact List.Sublist.refl _

/-- It is found under its name if there is something. -/
@[simp] theorem lookup_fieldIfSome :
    (fieldIfSome name encode o).lookup k = if k = name then o.map encode else none := by
  cases o with
  | none => exact (ite_self none).symm
  | some a =>
    by_cases hk : k = name
    · rw [if_pos hk, hk]
      exact List.lookup_cons_self
    · rw [if_neg hk, fieldIfSome, List.lookup_cons, beq_eq_false_iff_ne.2 hk]
      rfl

/-- What holds of it holds of what is there. -/
theorem forall_mem_fieldIfSome {p : String × Json → Prop} :
    (∀ f ∈ fieldIfSome name encode o, p f) ↔ ∀ a ∈ o, p (name, encode a) := by
  cases o <;> simp [fieldIfSome]

/-- A float is durable that survives being written and read. -/
theorem durable_ofDouble {d : Double} (h : Survives ofDouble Tree.double d) :
    (ofDouble d).Durable := by
  rw [ofDouble, if_pos (readNumeral_text h).1]
  exact .float h

/-- An integer of 64 bits is in reach, with a sign or without. -/
theorem durable_int64 {n : Int} (h : Tree.IsInt64 n) : (int n).Durable := by
  obtain ⟨hlow, hhigh⟩ : -9223372036854775808 ≤ n ∧ n ≤ 9223372036854775807 := h
  exact .int (inReach_iff.2 ⟨hlow, by omega⟩)

theorem durable_ofNat {n : Nat} (h : n < Nat.pow 2 64) : (ofNat n).Durable := by
  have hn : n < 18446744073709551616 := h
  exact .int (inReach_iff.2 ⟨by omega, by omega⟩)

/-- A list is durable if its elements are. -/
theorem durable_list {l : List α} (h : ∀ a ∈ l, (encode a).Durable) :
    (arr (l.map encode)).Durable :=
  .arr (List.forall_mem_map.2 h)

theorem durable_ofStrings (ss : List String) : (ofStrings ss).Durable :=
  durable_list fun s _ ↦ .str s

/-- What may be missing is durable if it is there and is. -/
theorem durable_ofOption (h : ∀ a ∈ o, (encode a).Durable) : (ofOption encode o).Durable := by
  cases o with
  | none => exact .null
  | some a => exact h a rfl

/-- A map is durable whose values are. -/
theorem durable_ofMap {m : OrderedMap Json} (h : ∀ e ∈ m.entries, e.2.Durable) :
    (ofMap m).Durable :=
  .obj m.distinct h

/-- An object is durable whose fields are, if its names are among names that do not repeat. -/
theorem durable_obj {fields : List (String × Json)} {names : List String}
    (hfields : (Entries.keys fields).Sublist names) (hnames : names.Nodup)
    (h : ∀ f ∈ fields, Durable f.2) : Durable (.obj fields) :=
  .obj (hfields.nodup hnames) h

end Json

/-! ### The parts of a record -/

/-- What is found in the tree of an object is the tree of what is found in it. -/
theorem Tree.lookup_ofFields (fields : List (String × Json)) (name : String) :
    (ofFields fields).lookup name = (fields.lookup name).map ofJson := by
  induction fields with
  | nil => rfl
  | cons f fields ih =>
    obtain ⟨k, j⟩ := f
    rw [ofFields, List.lookup_cons, List.lookup_cons, ih]
    cases name == k <;> rfl

/-- The names in the tree of an object are those of its fields. -/
theorem Tree.keys_ofFields (fields : List (String × Json)) :
    Entries.keys (ofFields fields) = Entries.keys fields := by
  rw [ofFields_eq, Entries.keys, List.map_map]
  rfl

namespace Record

/-- The record of some parts. -/
def ofTrees (label : String) (names : List String) (parts : List (String × Tree)) : Record :=
  ⟨label, names.length, parts, false, 0, ""⟩

/-- An object is a record if none of the names asked for is given twice. -/
theorem ofFields_eq {label : String} {names : List String} {parts : List (String × Tree)}
    (h : ∀ name ∈ names, (Entries.keys parts).count name ≤ 1) :
    ofFields label names parts = .ok (ofTrees label names parts) := by
  have hrepeated : repeated? names parts = none := by
    rw [repeated?, List.find?_eq_none]
    intro name hname
    simpa [Entries.length_filter_eq_count] using h name hname
  rw [ofFields, hrepeated]
  rfl

/-- The record of some fields. -/
def ofJson (label : String) (names : List String) (fields : List (String × Json)) : Record :=
  ⟨label, names.length, Tree.ofFields fields, false, 0, ""⟩

/-- A field is found by its name in an object, where its place does not matter. -/
theorem snd_find? (name : String) (place : Nat) (parts : List (String × Tree)) :
    (find? name place parts).map Prod.snd = parts.lookup name := by
  induction parts generalizing place with
  | nil => rfl
  | cons part rest ih =>
    obtain ⟨k, t⟩ := part
    by_cases hk : k = name
    · rw [find?, if_pos hk, hk, List.lookup_cons_self]
      rfl
    · rw [find?, if_neg hk, ih, List.lookup_cons, beq_eq_false_iff_ne.2 (Ne.symm hk)]

variable {α : Type} {label name : String} {names : List String} {fields : List (String × Json)}
  {decode : Decoder α} {a : α}

/-- A field that is there is decoded. -/
theorem fieldOr_of_lookup {r : Record} {t : Tree} {absent : Gathered α}
    (h : r.parts.lookup name = some t) (ht : decode t = .ok a) :
    r.fieldOr name decode absent = .value a := by
  have hfind := snd_find? name 0 r.parts
  rw [h] at hfind
  obtain ⟨⟨place, t⟩, hplace, rfl⟩ := Option.map_eq_some_iff.1 hfind
  simp only [fieldOr, hplace, ht]

/-- A field that does not decode is a fault. -/
theorem fieldOr_of_lookup_error {r : Record} {t : Tree} {m : Mismatch} {absent : Gathered α}
    (h : r.parts.lookup name = some t) (ht : decode t = .error m) :
    ∃ place, r.fieldOr name decode absent = .fault place m := by
  have hfind := snd_find? name 0 r.parts
  rw [h] at hfind
  obtain ⟨⟨place, t⟩, hplace, rfl⟩ := Option.map_eq_some_iff.1 hfind
  exact ⟨place, by simp only [fieldOr, hplace, ht]⟩

/-- A field that is not there is what is said for its absence. -/
theorem fieldOr_of_lookup_eq_none {r : Record} {absent : Gathered α}
    (h : r.parts.lookup name = none) : r.fieldOr name decode absent = absent := by
  have hfind := snd_find? name 0 r.parts
  rw [h, Option.map_eq_none_iff] at hfind
  simp only [fieldOr, hfind]

/-- A field that is there is decoded. -/
theorem fieldOr_of_some {j : Json} {absent : Gathered α} (h : fields.lookup name = some j)
    (hj : decode (Tree.ofJson j) = .ok a) :
    (ofJson label names fields).fieldOr name decode absent = .value a := by
  refine fieldOr_of_lookup ?_ hj
  rw [ofJson, Tree.lookup_ofFields, h, Option.map_some]

/-- A field of an object that is not there is what is said for its absence. -/
theorem fieldOr_of_none {absent : Gathered α} (h : fields.lookup name = none) :
    (ofJson label names fields).fieldOr name decode absent = absent := by
  refine fieldOr_of_lookup_eq_none ?_
  rw [ofJson, Tree.lookup_ofFields, h, Option.map_none]

variable {encode : α → Json} {o : Option α}

/-- A field that has to be there. -/
theorem required_of_lookup (h : fields.lookup name = some (encode a))
    (ha : Recovers encode decode a) :
    (ofJson label names fields).required name decode = .value a :=
  fieldOr_of_some h ha

/-- A field with a default that is there nevertheless. -/
theorem withDefault_of_lookup {default : α} (h : fields.lookup name = some (encode a))
    (ha : Recovers encode decode a) :
    (ofJson label names fields).withDefault name decode default = .value a :=
  fieldOr_of_some h ha

/-- Only null has the tree of null. -/
theorem ofJson_ne_null {j : Json} (h : j ≠ .null) : Tree.ofJson j ≠ .null := by
  cases j with
  | null => exact absurd rfl h
  | bool | int | float | str | arr | obj => nofun

/-- What is there is decoded as it is without a choice. -/
theorem optional_of_ne_null {t : Tree} (h : t ≠ .null) :
    Tree.optional decode t = (decode t).map some := by
  cases t with
  | null => exact absurd rfl h
  | bool | int | float | str | arr | obj | unusable => rfl

/-- An optional value is recovered, unless something would be written as null. -/
theorem optional_recovers (ho : ∀ a ∈ o, Recovers encode decode a)
    (hnull : ∀ a ∈ o, encode a ≠ .null) :
    Recovers (.ofOption encode) (Tree.optional decode) o := by
  cases o with
  | none => rfl
  | some a =>
    rw [Recovers, Json.ofOption, optional_of_ne_null (ofJson_ne_null (hnull a rfl)), ho a rfl]
    rfl

/-- A field that is written as `null` when there is nothing. -/
theorem optional_of_null (ho : ∀ a ∈ o, Recovers encode decode a)
    (hnull : ∀ a ∈ o, encode a ≠ .null) (h : fields.lookup name = some (.ofOption encode o)) :
    (ofJson label names fields).optional name decode = .value o :=
  fieldOr_of_some h (optional_recovers ho hnull)

/-- A field that is left out when there is nothing. -/
theorem optional_of_lookup (ho : ∀ a ∈ o, Recovers encode decode a)
    (hnull : ∀ a ∈ o, encode a ≠ .null) (h : fields.lookup name = o.map encode) :
    (ofJson label names fields).optional name decode = .value o := by
  cases o with
  | none => exact fieldOr_of_none h
  | some a => exact optional_of_null ho hnull h

end Record

/-- **The parts of a record are its fields.** -/
theorem Tree.record_ofJson {label : String} {names : List String} {fields : List (String × Json)}
    (distinct : (Entries.keys fields).Nodup) :
    Tree.record label names (ofJson (.obj fields)) = .ok (Record.ofJson label names fields) := by
  refine Record.ofFields_eq fun name _ ↦ ?_
  rw [keys_ofFields]
  exact List.nodup_iff_count_le_one.1 distinct name

theorem exists_of_map_eq_ok {ε α β : Type} {x : Except ε α} {f : α → β} {b : β}
    (h : x.map f = .ok b) :
    ∃ a, x = .ok a ∧ f a = b := by
  cases x with
  | error e => cases h
  | ok a => exact ⟨a, rfl, Except.ok.inj h⟩

namespace Gathered

variable {α β : Type}

/-- Gathering goes on under a function. -/
theorem map_value {x : Gathered α} {a : α} (f : α → β) (hx : x = .value a) :
    f <$> x = .value (f a) := by
  rw [hx]
  rfl

/-- Gathering goes on with one more field. -/
theorem seq_value {f : Gathered (α → β)} {g : α → β} {x : Gathered α} {a : α} (hf : f = .value g)
    (hx : x = .value a) : f <*> x = .value (g a) := by
  rw [hf, hx]
  rfl

/-- Parts give a value together only if each of them does. -/
theorem seq_eq_value {f : Gathered (α → β)} {x : Gathered α} {b : β} (h : f <*> x = .value b) :
    ∃ g a, f = .value g ∧ x = .value a ∧ g a = b := by
  cases f with
  | value g =>
    cases x with
    | value a => exact ⟨g, a, rfl, rfl, Gathered.value.inj h⟩
    | fault place m => cases h
  | fault place m =>
    cases x with
    | value a => cases h
    | fault place' m' =>
      change (if place' < place then fault place' m' else fault place m) = .value b at h
      split at h <;> cases h

theorem map_eq_value {f : α → β} {x : Gathered α} {b : β} (h : f <$> x = .value b) :
    ∃ a, x = .value a ∧ f a = b := by
  obtain ⟨g, a, hg, hx, rfl⟩ := seq_eq_value (f := .value f) h
  obtain rfl := Gathered.value.inj hg
  exact ⟨a, hx, rfl⟩

end Gathered

namespace Record

variable {α : Type} {label : String} {names : List String} {gather : Record → Gathered α} {a : α}

/-- An object is decoded if its fields are gathered. -/
theorem gathered {parts : List (String × Tree)}
    (h : Tree.record label names (.obj parts) = .ok (ofTrees label names parts))
    (hgather : gather (ofTrees label names parts) = .value a) :
    (do
      let r ← Tree.record label names (.obj parts)
      r.finish (gather r)) = Except.ok a := by
  rw [h]
  change (ofTrees label names parts).finish (gather (ofTrees label names parts)) = .ok a
  rw [hgather]
  rfl

/-- **A record is recovered if its fields are gathered.** -/
theorem recovered_of_distinct {fields : List (String × Json)}
    (distinct : (Entries.keys fields).Nodup)
    (hgather : gather (ofJson label names fields) = .value a) :
    (do
      let r ← Tree.record label names (Tree.ofJson (.obj fields))
      r.finish (gather r)) = Except.ok a :=
  gathered (Tree.record_ofJson distinct) hgather

/-- A durable object is read back if its fields are gathered to the value. -/
theorem recovered {fields : List (String × Json)} (h : (Json.obj fields).Durable)
    (hgather : gather (ofJson label names fields) = .value a) :
    (do
      let r ← Tree.record label names (Tree.ofJson (.obj fields))
      r.finish (gather r)) = Except.ok a := by
  cases h with
  | obj distinct _ => exact recovered_of_distinct distinct hgather

/-! ### What was gathered was there -/

variable {r : Record} {name : String} {f : Decoder α}

/-- A field that was gathered was decoded, or was not there. -/
theorem fieldOr_eq_value {absent : Gathered α} (h : r.fieldOr name f absent = .value a) :
    absent = .value a ∨ ∃ t, r.parts.lookup name = some t ∧ f t = .ok a := by
  cases hlookup : r.parts.lookup name with
  | none =>
    rw [fieldOr_of_lookup_eq_none hlookup] at h
    exact .inl h
  | some t =>
    cases ht : f t with
    | ok b =>
      rw [fieldOr_of_lookup hlookup ht] at h
      obtain rfl := Gathered.value.inj h
      exact .inr ⟨t, rfl, ht⟩
    | error m =>
      obtain ⟨place, hplace⟩ : ∃ place, r.fieldOr name f absent = .fault place m :=
        fieldOr_of_lookup_error hlookup ht
      rw [hplace] at h
      cases h

/-- A field that has to be there was decoded. -/
theorem required_eq_value (h : r.required name f = .value a) :
    ∃ t, r.parts.lookup name = some t ∧ f t = .ok a := by
  rcases fieldOr_eq_value h with habsent | hthere
  · cases habsent
  · exact hthere

/-- A field with a default was decoded, or is as by default. -/
theorem withDefault_eq_value {default : α} (h : r.withDefault name f default = .value a) :
    a = default ∨ ∃ t, r.parts.lookup name = some t ∧ f t = .ok a := by
  rcases fieldOr_eq_value h with habsent | hthere
  · exact .inl (Gathered.value.inj habsent).symm
  · exact .inr hthere

/-- **A record is decoded from its parts.** -/
theorem gathered_of_decode {t : Tree} (h : (do
      let r ← Tree.record label names t
      r.finish (gather r)) = Except.ok a) :
      ∃ r, Tree.record label names t = .ok r ∧ gather r = .value a := by
  cases hr : Tree.record label names t with
  | error m =>
    rw [hr] at h
    cases h
  | ok r =>
    rw [hr] at h
    change r.finish (gather r) = .ok a at h
    refine ⟨r, rfl, ?_⟩
    cases hgather : gather r with
    | fault place m =>
      rw [hgather] at h
      cases h
    | value b =>
      rw [hgather, finish] at h
      split at h <;> cases h
      rfl

end Record

end GraphSession
