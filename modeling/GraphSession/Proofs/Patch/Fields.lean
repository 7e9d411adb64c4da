import GraphSession.Proofs.Maps.Entries
import GraphSession.Proofs.Patch.Skeleton

/-!
# The fields of a node

Setting a field and setting an entry of a map are described by what they leave: `NodeField.Sets` and
`MapField.SetsEntry` say of the node before and after what the field holds, and that every other
field holds what it held. A node is no more than its identity and its fields (`NodeField.ext_get`),
so nothing is left open, and the descriptions hold exactly of what the edits return
(`NodeField.set_eq_ok_iff`, `MapField.setEntry_eq_ok_iff`).

**One kind of map.** The three maps of a node differ in their values and in whether a node has to
have them. They are described together, as maps of free-form values that may be missing
(`MapField.entries?`); this forgets nothing (`MapField.get_of_entries`). What is left of the
difference is which values an entry takes (`MapField.Takes`) and the order after a removal
(`MapField.without`).
-/

namespace GraphSession

namespace NodeField

/-- What a field holds. -/
abbrev Content : NodeField → Type
  | position => Position
  | param => OrderedMap Json
  | runtime => Option Double
  | schemaOut => Option (OrderedMap Json)
  | dataOut => Option (OrderedMap DataHandle)
  | fault => Option NodeFault

/-- What the field of a node holds. -/
def get : (f : NodeField) → Node → f.Content
  | position, n => n.position
  | param, n => n.param
  | runtime, n => n.runtime
  | schemaOut, n => n.schemaOut
  | dataOut, n => n.dataOut
  | fault, n => n.fault

/-- The node with something else in the field. -/
def put : (f : NodeField) → f.Content → Node → Node
  | position, p, n => { n with position := p }
  | param, m, n => { n with param := m }
  | runtime, r, n => { n with runtime := r }
  | schemaOut, m, n => { n with schemaOut := m }
  | dataOut, m, n => { n with dataOut := m }
  | fault, e, n => { n with fault := e }

variable {f g : NodeField} {n n' : Node} {value : Json}

/-- What is put into a field is what the field then holds. -/
theorem get_put_self (f : NodeField) (v : f.Content) (n : Node) : f.get (f.put v n) = v := by
  cases f <;> rfl

/-- Putting into one field leaves every other field. -/
theorem get_put_of_ne (h : g ≠ f) (v : f.Content) (n : Node) : g.get (f.put v n) = g.get n := by
  cases f <;> cases g <;> simp [get, put] at h ⊢

/-- Writes to different fields commute. -/
theorem put_comm (h : f ≠ g) (v : f.Content) (w : g.Content) (n : Node) :
    f.put v (g.put w n) = g.put w (f.put v n) := by
  cases f <;> cases g <;> first | rfl | exact absurd rfl h

/-- No field is part of what a patch must never change about a node. -/
theorem identity_put (f : NodeField) (v : f.Content) (n : Node) :
    (f.put v n).identity = n.identity := by
  cases f <;> rfl

/-- A node is its identity and what its fields hold. -/
theorem ext_get (hidentity : n'.identity = n.identity)
    (hget : ∀ f : NodeField, f.get n' = f.get n) :
    n' = n := by
  cases n
  cases n'
  obtain ⟨rfl, rfl⟩ := Prod.mk.inj hidentity
  obtain rfl := hget position
  obtain rfl := hget param
  obtain rfl := hget runtime
  obtain rfl := hget schemaOut
  obtain rfl := hget dataOut
  obtain rfl := hget fault
  rfl

/-- What a value is decoded to for the field. -/
def decode : (f : NodeField) → Decoder f.Content
  | position => Position.decode
  | param => fun t ↦ (Tree.optional (Tree.map Tree.freeForm) t).map fun m ↦ m.getD ∅
  | runtime => Tree.optional Tree.double
  | schemaOut => Tree.optional (Tree.map Tree.freeForm)
  | dataOut => Tree.optional decodeHandles
  | fault => Tree.optional NodeFault.decode

/-- The field holds nothing. There is always a position. -/
def IsCleared : (f : NodeField) → f.Content → Prop
  | position, _ => False
  | param, m => m = ∅
  | runtime, r => r = none
  | schemaOut, m => m = none
  | dataOut, m => m = none
  | fault, e => e = none

/-- What `null` is decoded to is nothing. -/
theorem isCleared_of_decode_null {v : f.Content} (h : f.decode .null = .ok v) : f.IsCleared v := by
  cases f <;> cases h <;> rfl

/-- Assigning a field decodes the value and puts it, and nothing else. -/
theorem set_eq (f : NodeField) (value : Json) (n : Node) :
    f.set value n = (f.decode (Tree.ofJson value)).map fun v ↦ f.put v n := by
  cases f with
  | param =>
    simp only [set, decode]
    cases Tree.optional (Tree.map Tree.freeForm) (Tree.ofJson value) <;> rfl
  | position | runtime | schemaOut | dataOut | fault => rfl

/-- A node in which one field, and nothing else, was set to what a value decodes to. -/
structure Sets (f : NodeField) (value : Json) (n n' : Node) : Prop where
  identity : n'.identity = n.identity
  others : ∀ g : NodeField, g ≠ f → g.get n' = g.get n
  decoded : f.decode (Tree.ofJson value) = .ok (f.get n')
  cleared : value = .null → f.IsCleared (f.get n')

/-- Assigning a field succeeds exactly as its specification says. -/
theorem set_eq_ok_iff : f.set value n = .ok n' ↔ f.Sets value n n' := by
  rw [set_eq]
  constructor
  · intro h
    cases hv : f.decode (Tree.ofJson value) with
    | error m =>
      rw [hv] at h
      cases h
    | ok v =>
      rw [hv] at h
      cases h
      rw [← get_put_self f v n] at hv
      exact ⟨identity_put f v n, fun g hg ↦ get_put_of_ne hg v n, hv, fun hnull ↦ by
        subst hnull
        exact isCleared_of_decode_null hv⟩
  · intro h
    rw [h.decoded]
    refine congrArg Except.ok (ext_get ?_ fun g ↦ ?_)
    · rw [identity_put, h.identity]
    · by_cases hg : g = f
      · subst hg
        exact get_put_self g _ n
      · rw [get_put_of_ne hg, h.others g hg]

end NodeField

theorem Json.isNull_iff {j : Json} : j.isNull = true ↔ j = .null := by
  cases j <;> simp [isNull]

namespace MapField

/-- The field that a map is. -/
def field : MapField → NodeField
  | param => .param
  | schemaOut => .schemaOut
  | dataOut => .dataOut

/-- Different free-form maps are different fields. -/
theorem field_injective : Function.Injective field := by
  intro f g h
  cases f <;> cases g <;> cases h <;> rfl

/-- The map of a node, if it has one, with free-form values. A handle is a string. -/
def entries? : MapField → Node → Option (OrderedMap Json)
  | param, n => some n.param
  | schemaOut, n => n.schemaOut
  | dataOut, n => n.dataOut.map fun m ↦ m.map .str

/-- What a map holds under a name. -/
abbrev Item : MapField → Type
  | param => Json
  | schemaOut => Json
  | dataOut => DataHandle

/-- What a value is decoded to for an entry. -/
def decodeItem : (f : MapField) → Json → Except Mismatch f.Item
  | param, j => .ok j
  | schemaOut, j => .ok j
  | dataOut, j => Tree.string (Tree.ofJson j)

/-- An item as a free-form value. -/
def itemValue : (f : MapField) → f.Item → Json
  | param, j => j
  | schemaOut, j => j
  | dataOut, handle => .str handle

/-- A field with one entry bound, if need be in a new map. -/
def bind : (f : MapField) → String → f.Item → f.field.Content → f.field.Content
  | param, key, v, m => m.insert key v
  | schemaOut, key, v, m => some ((m.getD ∅).insert key v)
  | dataOut, key, v, m => some ((m.getD ∅).insert key v)

/-- A field with one entry removed, if there is a map. -/
def unbind : (f : MapField) → String → f.field.Content → f.field.Content
  | param, key, m => m.eraseSwap key
  | schemaOut, key, m => m.map fun m ↦ m.erase key
  | dataOut, key, m => m.map fun m ↦ m.erase key

/-- What a field holds, with free-form values. -/
def freeForm : (f : MapField) → f.field.Content → Option (OrderedMap Json)
  | param, m => some m
  | schemaOut, m => m
  | dataOut, m => m.map fun m ↦ m.map .str

/-- The names that are left when one is removed, in their order. -/
def without (f : MapField) (key : String) (names : List String) : List String :=
  match f with
  | param => fillGap key names
  | schemaOut | dataOut => names.filter (· ≠ key)

variable {f : MapField} {key : String} {value : Json} {n n' n'' : Node}

/-- The free-form values tell everything about a map. -/
theorem get_of_entries (h : f.entries? n' = f.entries? n) : f.field.get n' = f.field.get n := by
  cases f with
  | param => exact Option.some.inj h
  | schemaOut => exact h
  | dataOut =>
    have hstr : Function.Injective Json.str := fun _ _ h ↦ Json.str.inj h
    exact Option.map_injective (OrderedMap.map_injective hstr) h

/-- A node in which one entry of a map, and nothing else, was bound to a value or removed by
`null`. -/
structure SetsEntry (f : MapField) (key : String) (value : Json) (n n' : Node) : Prop where
  identity : n'.identity = n.identity
  others : ∀ g : NodeField, g ≠ f.field → g.get n' = g.get n
  /-- A value is bound, if need be in a new map. -/
  bound : value ≠ .null → ∃ m', f.entries? n' = some m' ∧ ((f.entries? n).getD ∅).Binds key value m'
  /-- Nothing is removed from no map, and no map is made for it. -/
  absent : value = .null → f.entries? n = none → f.entries? n' = none
  removed : value = .null → ∀ m, f.entries? n = some m →
    ∃ m', f.entries? n' = some m' ∧ m.Unbinds key (f.without key m.keys) m'

/-- No two nodes fit. -/
theorem SetsEntry.unique (h' : f.SetsEntry key value n n') (h'' : f.SetsEntry key value n n'') :
    n' = n'' := by
  have hentries : f.entries? n' = f.entries? n'' := by
    by_cases hnull : value = .null
    · cases hm : f.entries? n with
      | none => rw [h'.absent hnull hm, h''.absent hnull hm]
      | some m =>
        obtain ⟨m', hm', hunbinds'⟩ := h'.removed hnull m hm
        obtain ⟨m'', hm'', hunbinds''⟩ := h''.removed hnull m hm
        rw [hm', hm'', hunbinds'.unique hunbinds'']
    · obtain ⟨m', hm', hbinds'⟩ := h'.bound hnull
      obtain ⟨m'', hm'', hbinds''⟩ := h''.bound hnull
      rw [hm', hm'', hbinds'.unique hbinds'']
  refine NodeField.ext_get (h'.identity.trans h''.identity.symm) fun g ↦ ?_
  by_cases hg : g = f.field
  · rw [hg, get_of_entries hentries]
  · rw [h'.others g hg, h''.others g hg]

/-- A map without one name. -/
def remove (f : MapField) (key : String) (m : OrderedMap Json) : OrderedMap Json :=
  match f with
  | param => m.eraseSwap key
  | schemaOut | dataOut => m.erase key

/-- Removal from a map unbinds the key and keeps the other entries, in the order the field leaves
them in. -/
theorem unbinds_remove (f : MapField) (key : String) (m : OrderedMap Json) :
    m.Unbinds key (f.without key m.keys) (f.remove key m) := by
  cases f with
  | param => exact m.unbinds_eraseSwap key
  | schemaOut | dataOut => exact m.unbinds_erase key

/-- Removal is seen at its own key only. -/
theorem get?_remove (f : MapField) (key x : String) (m : OrderedMap Json) :
    (f.remove key m).get? x = if x = key then none else m.get? x := by
  cases f with
  | param => exact m.get?_eraseSwap key x
  | schemaOut | dataOut => exact m.get?_erase key x

/-- A value is bound by writing the field. -/
theorem setsEntry_of_insert {v : f.field.Content} (hvalue : value ≠ .null)
    (h : f.entries? (f.field.put v n) = some (((f.entries? n).getD ∅).insert key value)) :
    f.SetsEntry key value n (f.field.put v n) where
  identity := NodeField.identity_put _ _ _
  others _ hg := NodeField.get_put_of_ne hg _ _
  bound _ := ⟨_, h, OrderedMap.binds_insert _ _ _⟩
  absent hnull := absurd hnull hvalue
  removed hnull := absurd hnull hvalue

/-- A name is removed by writing the field. -/
theorem setsEntry_of_remove {v : f.field.Content}
    (h : f.entries? (f.field.put v n) = (f.entries? n).map (f.remove key)) :
    f.SetsEntry key .null n (f.field.put v n) where
  identity := NodeField.identity_put _ _ _
  others _ hg := NodeField.get_put_of_ne hg _ _
  bound hne := absurd rfl hne
  absent _ hm := by rw [h, hm, Option.map_none]
  removed _ m hm := ⟨_, by rw [h, hm, Option.map_some], f.unbinds_remove key m⟩

/-- A map of free-form values takes any value, a map of handles takes strings. -/
def Takes : MapField → Json → Prop
  | param, _ => True
  | schemaOut, _ => True
  | dataOut, j => ∃ handle, j = .str handle

/-- What a map already holds under a key is something it takes. -/
theorem takes_of_get? {m : OrderedMap Json} (hm : f.entries? n = some m)
    (h : m.get? key = some value) :
    f.Takes value := by
  cases f with
  | param | schemaOut => trivial
  | dataOut =>
    obtain ⟨handles, -, rfl⟩ := Option.map_eq_some_iff.1 hm
    rw [OrderedMap.get?_map, Option.map_eq_some_iff] at h
    obtain ⟨handle, -, rfl⟩ := h
    exact ⟨handle, rfl⟩

theorem entries?_eq (f : MapField) (n : Node) : f.entries? n = f.freeForm (f.field.get n) := by
  cases f <;> rfl

theorem entries?_put (f : MapField) (v : f.field.Content) (n : Node) :
    f.entries? (f.field.put v n) = f.freeForm v := by
  rw [entries?_eq, NodeField.get_put_self]

theorem freeForm_bind (f : MapField) (key : String) (v : f.Item) (m : f.field.Content) :
    f.freeForm (f.bind key v m) = some (((f.freeForm m).getD ∅).insert key (f.itemValue v)) := by
  cases f with
  | param | schemaOut => rfl
  | dataOut =>
    refine congrArg some ((OrderedMap.map_insert Json.str _ key v).trans ?_)
    change _ = OrderedMap.insert ((Option.map _ m).getD ∅) _ _
    cases m <;> rfl

theorem freeForm_unbind (f : MapField) (key : String) (m : f.field.Content) :
    f.freeForm (f.unbind key m) = (f.freeForm m).map (f.remove key) := by
  cases f with
  | param | schemaOut => rfl
  | dataOut =>
    cases m with
    | none => rfl
    | some m => exact congrArg some (OrderedMap.map_erase Json.str m key)

/-- Assigning an entry is removal for `null`, and otherwise decodes the value and binds it. -/
theorem setEntry_eq (f : MapField) (key : String) (value : Json) (n : Node) :
    f.setEntry key value n =
      if value.isNull then .ok (f.field.put (f.unbind key (f.field.get n)) n)
      else (f.decodeItem value).map fun v ↦ f.field.put (f.bind key v (f.field.get n)) n := by
  cases f <;> rfl

/-- A decoded item gives back the value it was read from. -/
theorem itemValue_of_decodeItem {v : f.Item} (h : f.decodeItem value = .ok v) :
    f.itemValue v = value := by
  cases f with
  | param | schemaOut =>
    cases h
    rfl
  | dataOut =>
    cases value with
    | str s =>
      cases h
      rfl
    | null | bool | int | float | arr | obj => cases h

theorem exists_decodeItem (h : f.Takes value) : ∃ v, f.decodeItem value = .ok v := by
  cases f with
  | param | schemaOut => exact ⟨value, rfl⟩
  | dataOut =>
    obtain ⟨handle, rfl⟩ := h
    exact ⟨handle, rfl⟩

/-- `null` removes the entry, always with success, and without creating the map. -/
theorem setEntry_null (f : MapField) (key : String) (n : Node) :
    ∃ v : f.field.Content, f.setEntry key .null n = .ok (f.field.put v n) ∧
      f.entries? (f.field.put v n) = (f.entries? n).map (f.remove key) := by
  refine ⟨f.unbind key (f.field.get n), f.setEntry_eq key .null n, ?_⟩
  rw [entries?_put, freeForm_unbind, entries?_eq]

/-- A value the map takes is bound under the key, in a map created for it if there was none. -/
theorem setEntry_of_takes (hvalue : value ≠ .null) (h : f.Takes value) (key : String) (n : Node) :
    ∃ v : f.field.Content, f.setEntry key value n = .ok (f.field.put v n) ∧
      f.entries? (f.field.put v n) = some (((f.entries? n).getD ∅).insert key value) := by
  obtain ⟨v, hv⟩ := exists_decodeItem h
  refine ⟨f.bind key v (f.field.get n), ?_, ?_⟩
  · rw [setEntry_eq, if_neg (mt Json.isNull_iff.1 hvalue), hv]
    rfl
  · rw [entries?_put, freeForm_bind, entries?_eq, itemValue_of_decodeItem hv]

/-- A value the map does not take is refused. -/
theorem setEntry_of_not_takes (hvalue : value ≠ .null) (h : ¬ f.Takes value) (key : String)
    (n : Node) :
    ∃ m, f.setEntry key value n = .error m := by
  cases f with
  | param | schemaOut => exact absurd trivial h
  | dataOut =>
    cases value with
    | null => exact absurd rfl hvalue
    | str s => exact absurd ⟨s, rfl⟩ h
    | bool | int | float | arr | obj => exact ⟨_, rfl⟩

/-- An edit that is accepted with the one node that fits is accepted with no other. -/
theorem setEntry_eq_ok_iff_of_setsEntry (h : f.setEntry key value n = .ok n'')
    (hsets : f.SetsEntry key value n n'') :
    f.setEntry key value n = .ok n' ↔ f.SetsEntry key value n n' := by
  rw [h, Except.ok.injEq]
  exact ⟨fun heq ↦ heq ▸ hsets, fun h' ↦ hsets.unique h'⟩

/-- Assigning an entry succeeds exactly as its specification says. -/
theorem setEntry_eq_ok_iff : f.setEntry key value n = .ok n' ↔ f.SetsEntry key value n n' := by
  by_cases hvalue : value = .null
  · subst hvalue
    obtain ⟨v, hset, hentries⟩ := setEntry_null f key n
    exact setEntry_eq_ok_iff_of_setsEntry hset (setsEntry_of_remove hentries)
  · by_cases htakes : f.Takes value
    · obtain ⟨v, hset, hentries⟩ := setEntry_of_takes hvalue htakes key n
      exact setEntry_eq_ok_iff_of_setsEntry hset (setsEntry_of_insert hvalue hentries)
    -- What is bound is found in the map afterwards, so a map takes it.
    · obtain ⟨m, hm⟩ := setEntry_of_not_takes hvalue htakes key n
      rw [hm]
      refine ⟨nofun, fun h ↦ absurd ?_ htakes⟩
      obtain ⟨m', hm', hbinds⟩ := h.bound hvalue
      exact takes_of_get? hm' hbinds.get?_self

end MapField

end GraphSession
