import GraphSession.Proofs.Patch.Verdict
import GraphSession.Proofs.Project.Alike

/-!
# Edits write blindly

A patch never reads what it overwrites. If the order of entries is overlooked, a node comes apart
into aspects (`NodeAspect`): its identity, the fields that are no maps, which of its maps there are,
and what each name is bound to in them. Nodes that agree in every aspect are alike
(`Node.alike_iff`). On every aspect an edit is blind (`NodeEdit.blindOn_run`): it leaves the aspect
as it is, or makes it one and the same whatever it was.

**Blindness adds up.** Blind changes one after the other are a blind change (`BlindOn.comp`), and a
blind change made twice comes to the same as made once (`BlindOn.again`). The order of entries is no
aspect because an insertion is not blind on it: what was removed comes back at the end.

**Independence.** Edits of different fields commute (`NodeEdit.run_comm`), and edits under different
names of one map commute up to the order of entries (`NodeEdit.alike_comm`).
-/

namespace GraphSession

universe u v

/-! ### Blind changes -/

/-- A change leaves what is seen of a state as it is, or makes it the same whatever it was. -/
def BlindOn {σ : Type u} {β : Type v} (change : σ → σ) (see : σ → β) : Prop :=
  (∀ s, see (change s) = see s) ∨ ∀ s s', see (change s) = see (change s')

namespace BlindOn

variable {σ : Type u} {β : Type v} {F G : σ → σ} {see : σ → β}

/-- One blind change after another is blind. -/
theorem comp (hG : BlindOn G see) (hF : BlindOn F see) : BlindOn (fun s ↦ G (F s)) see := by
  obtain hG | hG := hG
  · obtain hF | hF := hF
    · exact .inl fun s ↦ (hG _).trans (hF s)
    · refine .inr fun s s' ↦ ?_
      rw [hG, hG]
      exact hF s s'
  · exact .inr fun s s' ↦ hG _ _

/-- **Many changes** in order. -/
theorem foldl {ι : Type*} {act : ι → σ → σ} {l : List ι} (h : ∀ i ∈ l, BlindOn (act i) see) :
    BlindOn (fun s ↦ l.foldl (fun s i ↦ act i s) s) see := by
  induction l with
  | nil => exact .inl fun _ ↦ rfl
  | cons i l ih =>
    obtain ⟨hi, hl⟩ := List.forall_mem_cons.1 h
    exact (ih hl).comp hi

/-- **A second time changes nothing.** -/
theorem again (h : BlindOn F see) (s : σ) : see (F (F s)) = see (F s) := by
  obtain h | h := h
  · exact h _
  · exact h _ _

/-- What one of two changes leaves, they make the same in either order. -/
theorem comm_of_leaves (hF : ∀ s, see (F s) = see s) (hG : BlindOn G see) (s : σ) :
    see (F (G s)) = see (G (F s)) := by
  rw [hF]
  obtain hG | hG := hG
  · rw [hG, hG, hF]
  · exact hG _ _

end BlindOn

/-! ### The aspects of a node -/

/-- One thing to see of a node if the order of entries is overlooked. -/
inductive NodeAspect where
  | identity
  | plain (g : NodeField) (h : ∀ f : MapField, f.field ≠ g)
  | present (f : MapField)
  | entry (f : MapField) (key : String)

namespace NodeAspect

/-- What is seen of it. -/
abbrev Content : NodeAspect → Type
  | identity => String × NodeKind
  | plain g _ => g.Content
  | present _ => Bool
  | entry _ _ => Option Json

/-- What an aspect shows of a node: the identity, the value of a field, whether a free-form map is
there at all, or the value under one key of it. -/
def look : (a : NodeAspect) → Node → a.Content
  | identity, n => n.identity
  | plain g _, n => g.get n
  | present f, n => (f.entries? n).isSome
  | entry f key, n => (f.entries? n).bind fun m ↦ m.get? key

/-- The field that it is a part of. -/
def field? : NodeAspect → Option NodeField
  | identity => none
  | plain g _ => some g
  | present f => some f.field
  | entry f _ => some f.field

variable {a : NodeAspect} {f : NodeField} {n n' : Node}

/-- An aspect of a field is seen from the field alone. -/
theorem look_congr (h : a.field? = some f) (hget : f.get n = f.get n') : a.look n = a.look n' := by
  cases a with
  | identity => cases h
  | plain g _ =>
    cases h
    exact hget
  | present g | entry g key =>
    cases h
    simp only [look, MapField.entries?_eq, hget]

/-- Writing a field leaves the rest. -/
theorem look_put_of_ne (h : a.field? ≠ some f) (v : f.Content) (n : Node) :
    a.look (f.put v n) = a.look n := by
  cases hfield : a.field? with
  | none =>
    cases a with
    | identity => exact NodeField.identity_put f v n
    | plain | present | entry => cases hfield
  | some g =>
    refine look_congr hfield (NodeField.get_put_of_ne ?_ v n)
    rintro rfl
    exact h hfield

end NodeAspect

/-- Optional maps are alike if both are there or none is, and every name is bound to the same in
them. -/
theorem OrderedMap.rel_alike_iff {o o' : Option (OrderedMap Json)} :
    Option.Rel OrderedMap.Alike o o' ↔
    o.isSome = o'.isSome ∧ ∀ key, (o.bind fun m ↦ m.get? key) = o'.bind fun m ↦ m.get? key := by
  constructor
  · intro h
    cases h with
    | none => exact ⟨rfl, fun _ ↦ rfl⟩
    | some h => exact ⟨rfl, h⟩
  · rintro ⟨hpresent, hentry⟩
    cases o with
    | none =>
      cases o' with
      | none => exact .none
      | some m' => cases hpresent
    | some m =>
      cases o' with
      | none => cases hpresent
      | some m' => exact .some hentry

/-- **A node is known by its aspects** up to the order of entries. -/
theorem Node.alike_iff {n n' : Node} : n.Alike n' ↔ ∀ a : NodeAspect, a.look n = a.look n' := by
  constructor
  · intro h a
    cases a with
    | identity => exact h.identity
    | plain g hg => exact h.plain g hg
    | present f => exact (OrderedMap.rel_alike_iff.1 (h.maps f)).1
    | entry f key => exact (OrderedMap.rel_alike_iff.1 (h.maps f)).2 key
  · intro h
    exact ⟨h .identity, fun g hg ↦ h (.plain g hg), fun f ↦
      OrderedMap.rel_alike_iff.2 ⟨h (.present f), fun key ↦ h (.entry f key)⟩⟩

/-! ### Entries -/

namespace NodeEdit

variable {f : MapField} {key : String} {v : f.Item} {a : NodeAspect} {n : Node}

/-- Binding an entry leaves the map in place, created if it was not there. -/
theorem look_bind_present (f : MapField) (key : String) (v : f.Item) (n : Node) :
    (NodeAspect.present f).look ((bind f key v).run n) = true := by
  rw [NodeAspect.look, run, MapField.entries?_put, MapField.freeForm_bind, Option.isSome_some]

/-- Removing an entry neither creates the map nor takes it away. -/
theorem look_remove_present (f : MapField) (key : String) (n : Node) :
    (NodeAspect.present f).look ((remove f key).run n) = (NodeAspect.present f).look n := by
  rw [NodeAspect.look, NodeAspect.look, run, MapField.entries?_put, MapField.freeForm_unbind,
    Option.isSome_map, MapField.entries?_eq]

/-- Binding an entry is seen at its own key only. -/
theorem look_bind_entry (f : MapField) (key x : String) (v : f.Item) (n : Node) :
    (NodeAspect.entry f x).look ((bind f key v).run n) =
      if x = key then some (f.itemValue v) else (NodeAspect.entry f x).look n := by
  rw [NodeAspect.look, NodeAspect.look, run, MapField.entries?_put, MapField.freeForm_bind,
    Option.bind_some, OrderedMap.get?_insert, MapField.entries?_eq]
  cases f.freeForm (f.field.get n) <;> rfl

/-- Removing an entry is seen at its own key only. -/
theorem look_remove_entry (f : MapField) (key x : String) (n : Node) :
    (NodeAspect.entry f x).look ((remove f key).run n) =
      if x = key then none else (NodeAspect.entry f x).look n := by
  rw [NodeAspect.look, NodeAspect.look, run, MapField.entries?_put, MapField.freeForm_unbind,
    MapField.entries?_eq]
  cases f.freeForm (f.field.get n) with
  | none => exact (ite_self none).symm
  | some m => exact f.get?_remove key x m

/-- What is not removed stays. -/
theorem look_remove (h : a ≠ .entry f key) (n : Node) :
    a.look ((remove f key).run n) = a.look n := by
  by_cases hfield : a.field? = some f.field
  · cases a with
    | identity => cases hfield
    | plain g hg => exact absurd (Option.some.inj hfield).symm (hg f)
    | present g =>
      obtain rfl := MapField.field_injective (Option.some.inj hfield)
      exact look_remove_present g key n
    | entry g x =>
      obtain rfl := MapField.field_injective (Option.some.inj hfield)
      rw [look_remove_entry, if_neg fun hx ↦ h (congrArg _ hx)]
  · exact NodeAspect.look_put_of_ne hfield _ n

/-- What is not bound stays, if the map is there already. -/
theorem look_bind (h : a ≠ .entry f key) (hpresent : a ≠ .present f) (v : f.Item) (n : Node) :
    a.look ((bind f key v).run n) = a.look n := by
  by_cases hfield : a.field? = some f.field
  · cases a with
    | identity => cases hfield
    | plain g hg => exact absurd (Option.some.inj hfield).symm (hg f)
    | present g =>
      obtain rfl := MapField.field_injective (Option.some.inj hfield)
      exact absurd rfl hpresent
    | entry g x =>
      obtain rfl := MapField.field_injective (Option.some.inj hfield)
      rw [look_bind_entry, if_neg fun hx ↦ h (congrArg _ hx)]
  · exact NodeAspect.look_put_of_ne hfield _ n

/-- **An edit is blind** on every aspect. -/
theorem blindOn_run (t : NodeEdit) (a : NodeAspect) : BlindOn t.run a.look := by
  cases t with
  | replace n => exact .inr fun _ _ ↦ rfl
  | set f v =>
    by_cases hfield : a.field? = some f
    · refine .inr fun n n' ↦ NodeAspect.look_congr hfield ?_
      rw [run, run, NodeField.get_put_self, NodeField.get_put_self]
    · exact .inl fun n ↦ NodeAspect.look_put_of_ne hfield v n
  -- Binding writes two aspects, because it makes the map if there is none.
  | bind f key v =>
    by_cases hentry : a = .entry f key
    · subst hentry
      refine .inr fun n n' ↦ ?_
      rw [look_bind_entry, look_bind_entry, if_pos rfl, if_pos rfl]
    · by_cases hpresent : a = .present f
      · subst hpresent
        refine .inr fun n n' ↦ ?_
        rw [look_bind_present, look_bind_present]
      · exact .inl fun n ↦ look_bind hentry hpresent v n
  | remove f key =>
    by_cases hentry : a = .entry f key
    · subst hentry
      refine .inr fun n n' ↦ ?_
      rw [look_remove_entry, look_remove_entry, if_pos rfl, if_pos rfl]
    · exact .inl fun n ↦ look_remove hentry n

/-! ### Independence -/

/-- The field that an edit is confined to. -/
def field? : NodeEdit → Option NodeField
  | replace _ => none
  | set f _ => some f
  | bind f _ _ => some f.field
  | remove f _ => some f.field

/-- An edit of a field reads and writes that field alone. -/
theorem exists_run_eq {t : NodeEdit} {g : NodeField} (h : t.field? = some g) :
    ∃ change : g.Content → g.Content, ∀ n, t.run n = g.put (change (g.get n)) n := by
  cases t with
  | replace n => cases h
  | set f v =>
    cases h
    exact ⟨fun _ ↦ v, fun _ ↦ rfl⟩
  | bind f key v =>
    cases h
    exact ⟨f.bind key v, fun _ ↦ rfl⟩
  | remove f key =>
    cases h
    exact ⟨f.unbind key, fun _ ↦ rfl⟩

/-- **Edits of different fields** commute. -/
theorem run_comm {t t' : NodeEdit} {g g' : NodeField} (h : t.field? = some g)
    (h' : t'.field? = some g') (hne : g ≠ g') (n : Node) : t.run (t'.run n) = t'.run (t.run n) := by
  obtain ⟨change, hchange⟩ := exists_run_eq h
  obtain ⟨change', hchange'⟩ := exists_run_eq h'
  rw [hchange, hchange', hchange', hchange, NodeField.get_put_of_ne hne,
    NodeField.get_put_of_ne hne.symm, NodeField.put_comm hne]

/-- An edit is of one entry of a map. -/
inductive IsOfEntry (f : MapField) (key : String) : NodeEdit → Prop
  | bind (v : f.Item) : IsOfEntry f key (bind f key v)
  | remove : IsOfEntry f key (remove f key)

/-- An edit of an entry is seen only at that entry and in whether the map is there. -/
theorem IsOfEntry.look {t : NodeEdit} (ht : t.IsOfEntry f key) (h : a ≠ .entry f key)
    (hpresent : a ≠ .present f) (n : Node) : a.look (t.run n) = a.look n := by
  cases ht with
  | bind v => exact look_bind h hpresent v n
  | remove => exact look_remove h n

/-- **Edits under different names** of one map commute up to the order of entries. -/
theorem alike_comm {t t' : NodeEdit} {key' : String} (ht : t.IsOfEntry f key)
    (ht' : t'.IsOfEntry f key') (hne : key ≠ key') (n : Node) :
    (t.run (t'.run n)).Alike (t'.run (t.run n)) := by
  refine Node.alike_iff.2 fun a ↦ ?_
  by_cases hpresent : a = .present f
  · -- Both may make the map, and neither takes it away.
    subst hpresent
    cases ht with
    | remove => exact BlindOn.comm_of_leaves (look_remove_present f key) (blindOn_run t' _) n
    | bind v =>
      cases ht' with
      | remove =>
        exact (BlindOn.comm_of_leaves (look_remove_present f key') (blindOn_run _ _) n).symm
      | bind v' => rw [look_bind_present, look_bind_present]
  · by_cases hentry : a = .entry f key
    · have hentry' : a ≠ .entry f key' := by
        subst hentry
        exact fun h ↦ hne (NodeAspect.entry.inj h).2
      exact (BlindOn.comm_of_leaves (ht'.look hentry' hpresent) (blindOn_run t a) n).symm
    · exact BlindOn.comm_of_leaves (ht.look hentry hpresent) (blindOn_run t' a) n

end NodeEdit

end GraphSession
