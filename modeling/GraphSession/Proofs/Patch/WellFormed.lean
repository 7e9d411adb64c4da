import GraphSession.Proofs.Patch.Verdict
import GraphSession.Proofs.Project.Decoded

/-!
# Patches keep projects well-formed

A patch with a well-formed value leaves a well-formed project well-formed. Whatever is asked of
floats, finite ones have to meet it, because every float that a patch brings in is finite; the
floats that were there stay or go.

The effect of a patch is well-formed by itself (`PatchOp.wellFormed_of_verdict`), and an effect that
is keeps projects well-formed (`PatchEffect.wellFormed_on`).
-/

namespace GraphSession

variable {ok ok' : Double → Prop}

/-! ### Field by field -/

namespace NodeField

/-- The floats of a field are as asked and its free-form values are well-formed. -/
def WellFormed (ok : Double → Prop) : (f : NodeField) → f.Content → Prop
  | position, p => p.WellFormed ok
  | param, m => ∀ e ∈ m.entries, e.2.WellFormed
  | runtime, r => ∀ d ∈ r, ok d
  | schemaOut, m => ∀ m' ∈ m, ∀ e ∈ m'.entries, e.2.WellFormed
  | dataOut, _ => True
  | fault, _ => True

theorem WellFormed.mono {f : NodeField} {v : f.Content} (h : f.WellFormed ok v)
    (hok : ∀ d, ok d → ok' d) :
    f.WellFormed ok' v := by
  cases f with
  | position => exact ⟨hok _ h.x, hok _ h.y⟩
  | runtime => exact fun d hd ↦ hok d (h d hd)
  | param | schemaOut | dataOut | fault => exact h

/-- What a field is decoded to is well-formed, and its floats are finite. -/
theorem wellFormed_of_decode {f : NodeField} {t : Tree} {v : f.Content} (ht : t.WellFormed)
    (h : f.decode t = .ok v) : f.WellFormed (fun d ↦ d.isFinite = true) v := by
  cases f with
  | position => exact Position.wellFormed_of_decode ht h
  | runtime => exact fun d hd ↦ Tree.isFinite_of_double ht (Tree.of_optional h d hd)
  | schemaOut => exact fun m hm ↦ Tree.wellFormed_of_freeMap ht (Tree.of_optional h m hm)
  | dataOut | fault => trivial
  | param =>
    obtain ⟨m, hm, rfl⟩ := exists_of_map_eq_ok h
    cases m with
    | none => exact List.forall_mem_nil _
    | some m => exact Tree.wellFormed_of_freeMap ht (Tree.of_optional hm m rfl)

end NodeField

namespace Node

variable {n : Node}

/-- A node is well formed when every field of it is. -/
theorem wellFormed_iff : n.WellFormed ok ↔ ∀ f : NodeField, f.WellFormed ok (f.get n) := by
  constructor
  · intro h f
    cases f with
    | position => exact h.position
    | param => exact h.param
    | runtime => exact h.runtime
    | schemaOut => exact h.schemaOut
    | dataOut | fault => trivial
  · exact fun h ↦ ⟨h .position, h .param, h .runtime, h .schemaOut⟩

/-- A well-formed value in a field keeps the node well formed. -/
theorem WellFormed.put (h : n.WellFormed ok) {f : NodeField} {v : f.Content}
    (hv : f.WellFormed ok v) :
    (f.put v n).WellFormed ok := by
  refine wellFormed_iff.2 fun g ↦ ?_
  by_cases hg : g = f
  · subst hg
    rwa [NodeField.get_put_self]
  · rw [NodeField.get_put_of_ne hg]
    exact wellFormed_iff.1 h g

end Node

namespace MapField

variable {f : MapField} {key : String} {c : f.field.Content}

/-- A map field is well-formed if every value in it is. A handle is a string, and that always is. -/
theorem wellFormed_iff : f.field.WellFormed ok c ↔
    ∀ m ∈ f.freeForm c, ∀ k v, m.get? k = some v → v.WellFormed := by
  cases f with
  | param =>
    have hsome : (∀ m ∈ param.freeForm c, ∀ k v, m.get? k = some v → v.WellFormed) ↔
        ∀ k v, OrderedMap.get? c k = some v → v.WellFormed :=
      ⟨fun h ↦ h c rfl, fun h m hm ↦ Option.some.inj hm ▸ h⟩
    rw [hsome]
    exact OrderedMap.forall_entries_iff
  | schemaOut => exact forall₂_congr fun m _ ↦ OrderedMap.forall_entries_iff
  | dataOut =>
    refine iff_of_true trivial fun m hm k v hv ↦ ?_
    obtain ⟨handles, -, rfl⟩ := Option.map_eq_some_iff.1 hm
    rw [OrderedMap.get?_map, Option.map_eq_some_iff] at hv
    obtain ⟨handle, -, rfl⟩ := hv
    exact .str handle

/-- Binding a well-formed item keeps a map well formed. -/
theorem wellFormed_bind {v : f.Item} (h : f.field.WellFormed ok c)
    (hv : (f.itemValue v).WellFormed) :
    f.field.WellFormed ok (f.bind key v c) := by
  rw [wellFormed_iff] at h ⊢
  rw [freeForm_bind]
  rintro _ ⟨⟩ x w hw
  rw [OrderedMap.get?_insert] at hw
  split at hw
  · cases hw
    exact hv
  · cases hc : f.freeForm c with
    | none =>
      rw [hc] at hw
      cases hw
    | some m =>
      rw [hc] at hw
      exact h m hc x w hw

/-- Removing an entry keeps a map well formed. -/
theorem wellFormed_unbind (h : f.field.WellFormed ok c) :
    f.field.WellFormed ok (f.unbind key c) := by
  rw [wellFormed_iff] at h ⊢
  rw [freeForm_unbind]
  intro m hm x w hw
  obtain ⟨m, hc, rfl⟩ := Option.map_eq_some_iff.1 hm
  rw [get?_remove] at hw
  split at hw
  · cases hw
  · exact h m hc x w hw

end MapField

/-! ### Effects -/

/-- What an edit brings into a node is well-formed. -/
def NodeEdit.WellFormed (ok : Double → Prop) : NodeEdit → Prop
  | replace n => n.WellFormed ok
  | set f v => f.WellFormed ok v
  | bind f _ v => (f.itemValue v).WellFormed
  | remove _ _ => True

theorem NodeEdit.WellFormed.mono {t : NodeEdit} (h : t.WellFormed ok) (hok : ∀ d, ok d → ok' d) :
    t.WellFormed ok' := by
  cases t with
  | replace n => exact Node.WellFormed.mono h hok
  | set f v => exact NodeField.WellFormed.mono h hok
  | bind f key v => exact h
  | remove f key => trivial

/-- A well-formed edit keeps a node well formed. -/
theorem NodeEdit.wellFormed_run {t : NodeEdit} {n : Node} (ht : t.WellFormed ok)
    (hn : n.WellFormed ok) :
    (t.run n).WellFormed ok := by
  cases t with
  | replace n' => exact ht
  | set f v => exact hn.put ht
  | bind f key v => exact hn.put (MapField.wellFormed_bind (Node.wellFormed_iff.1 hn f.field) ht)
  | remove f key => exact hn.put (MapField.wellFormed_unbind (Node.wellFormed_iff.1 hn f.field))

/-- What an effect brings into a project is well-formed. -/
def PatchEffect.WellFormed (ok : Double → Prop) : PatchEffect → Prop
  | error _ => True
  | node _ t => t.WellFormed ok

theorem PatchEffect.WellFormed.mono {e : PatchEffect} (h : e.WellFormed ok)
    (hok : ∀ d, ok d → ok' d) :
    e.WellFormed ok' := by
  cases e with
  | error e => trivial
  | node i t => exact NodeEdit.WellFormed.mono h hok

/-- A well-formed effect keeps a project well formed. -/
theorem PatchEffect.wellFormed_on {e : PatchEffect} {p : Project} (he : e.WellFormed ok)
    (hp : p.WellFormed ok) : (e.on p).WellFormed ok := by
  cases e with
  | error e => exact hp
  | node i t =>
    intro n hn
    obtain ⟨j, hj⟩ := List.mem_iff_getElem?.1 hn
    rw [PatchEffect.on, List.getElem?_modify] at hj
    obtain ⟨n', hn', rfl⟩ := Option.map_eq_some_iff.1 hj
    have hmem : n'.WellFormed ok := hp n' (List.mem_of_getElem? hn')
    split
    · exact NodeEdit.wellFormed_run he hmem
    · exact hmem

namespace PatchOp

variable {op : PatchOp} {ids : List (String × NodeKind)} {e : PatchEffect} {p p' : Project}

/-- An effect found by seeking is well formed when the effect at every position is. -/
theorem wellFormed_of_seek {sel : NodeSelector} {effect : Nat → Except PatchFault PatchEffect}
    (h : sel.seek ids effect = .ok e) (heffect : ∀ i, effect i = .ok e → e.WellFormed ok) :
    e.WellFormed ok := by
  rw [NodeSelector.seek] at h
  split at h
  · cases h
  · exact heffect _ h

theorem wellFormed_of_map {α : Type} {x : Except Mismatch α} {f : α → PatchEffect}
    {g : Mismatch → PatchFault} (h : (x.map f).mapError g = .ok e)
    (hf : ∀ a, x = .ok a → (f a).WellFormed ok) : e.WellFormed ok := by
  obtain ⟨a, ha, rfl⟩ := exists_of_map_eq_ok (mapError_eq_ok_iff.1 h)
  exact hf a ha

/-- **The effect of a well-formed value is well-formed,** and its floats are finite. -/
theorem wellFormed_of_verdict (hvalue : op.value.WellFormed) (h : op.verdict ids = .ok e) :
    e.WellFormed fun d ↦ d.isFinite = true := by
  have ht : (Tree.ofJson op.value).WellFormed := ⟨_, hvalue, rfl⟩
  rw [verdict] at h
  split at h
  case h_1 => cases h
  case h_2 => exact wellFormed_of_map h fun _ _ ↦ trivial
  case h_3 =>
    split at h
    · cases h
    · rename_i hdecode
      -- a whole node is decoded before it replaces another
      refine wellFormed_of_seek h fun i hi ↦ ?_
      split at hi
      · cases hi
        exact Node.wellFormed_of_decode ht hdecode
      · cases hi
  case h_4 sel f _ =>
    refine wellFormed_of_seek h fun i hi ↦ wellFormed_of_map hi fun v hv ↦ ?_
    exact NodeField.wellFormed_of_decode ht hv
  case h_5 sel f key _ =>
    refine wellFormed_of_seek h fun i hi ↦ wellFormed_of_map hi fun t ht ↦ ?_
    rw [MapField.edit] at ht
    split at ht
    · -- a removal brings nothing in
      cases ht
      trivial
    · obtain ⟨v, hv, rfl⟩ := exists_of_map_eq_ok ht
      rw [PatchEffect.WellFormed, NodeEdit.WellFormed, MapField.itemValue_of_decodeItem hv]
      exact hvalue

/-- Whatever an operation does, accepted or not, leaves a well-formed project. -/
theorem wellFormed_settle (hok : ∀ d : Double, d.isFinite = true → ok d)
    (hvalue : op.value.WellFormed) (hp : p.WellFormed ok) : (settle p op).WellFormed ok := by
  rw [settle_eq_act, act]
  cases he : op.verdict p.identities with
  | error e => exact hp
  | ok e => exact PatchEffect.wellFormed_on ((wellFormed_of_verdict hvalue he).mono hok) hp

/-- **Many patches.** -/
theorem wellFormed_performAll (hok : ∀ d : Double, d.isFinite = true → ok d) {ops : List PatchOp}
    (hops : ∀ op ∈ ops, op.value.WellFormed) (hp : p.WellFormed ok) :
    (performAll p ops).1.WellFormed ok := by
  rw [performAll_eq]
  induction ops generalizing p with
  | nil => exact hp
  | cons op rest ih =>
    obtain ⟨hop, hrest⟩ := List.forall_mem_cons.1 hops
    exact ih hrest (wellFormed_settle hok hop hp)

end PatchOp

end GraphSession
