import GraphSession.Proofs.Patch.Edits
import GraphSession.Proofs.Patch.WellFormed

/-!
# Patches of disjoint places are exchanged

Selectors may hide where a patch writes, since an index and an id can name the same node. The place
itself is known once the selectors are followed (`PatchTarget.LeadsTo`). Two places are disjoint
(`PatchPlace.Disjoint`) if they are not in the same node, or not in the same field of it, or if they
are two entries of one map.

**What the order can show.** Patches of disjoint places come to the same project in either order,
but for one case: of two new entries of one map the first one written comes first
(`PatchOp.exchanged`). In that case too the projects are alike, so nothing they are compared with
tells them apart.

**NaN is equal to nothing.** A project with such a position or run time does not equal itself, let
alone the result of the other order (`PatchOp.not_exchanged_adrift`). So the two results are equal
exactly if none of their floats is NaN. No patch brings a NaN in, and no text can be read that has
one.
-/

namespace GraphSession

/-- A place in a project that a patch can write. -/
inductive PatchPlace where
  | error
  | node (i : Nat)
  | field (i : Nat) (f : NodeField)
  | entry (i : Nat) (f : MapField) (key : String)

namespace PatchPlace

/-- The node that a place is in, if it is in one. -/
def node? : PatchPlace → Option Nat
  | error => none
  | node i | field i _ | entry i _ _ => some i

/-- The field that a place is in, if it is in one. -/
def field? : PatchPlace → Option NodeField
  | error | node _ => none
  | field _ f => some f
  | entry _ f _ => some f.field

/-- Places with nothing in common. -/
inductive Disjoint : PatchPlace → PatchPlace → Prop
  /-- They are in different nodes, or one is the error of the workflow. -/
  | nodes {x y : PatchPlace} (h : x.node? ≠ y.node?) : Disjoint x y
  | fields {x y : PatchPlace} {f g : NodeField} (hx : x.field? = some f) (hy : y.field? = some g)
      (h : f ≠ g) : Disjoint x y
  | entries (i : Nat) (f : MapField) {key key' : String} (h : key ≠ key') :
      Disjoint (.entry i f key) (.entry i f key')

/-- Two entries of one map. -/
inductive InOneMap : PatchPlace → PatchPlace → Prop
  | entries (i : Nat) (f : MapField) (key key' : String) :
  InOneMap (.entry i f key) (.entry i f key')

end PatchPlace

/-- The place that a target means among the nodes of a project. -/
inductive PatchTarget.LeadsTo (nodes : List Node) : PatchTarget → PatchPlace → Prop
  | error : LeadsTo nodes .workflowError .error
  | node {sel : NodeSelector} {i : Nat} {n : Node} (h : sel.Picks nodes i n) :
      LeadsTo nodes (.node sel) (.node i)
  | field {sel : NodeSelector} {i : Nat} {n : Node} (h : sel.Picks nodes i n) (f : NodeField) :
      LeadsTo nodes (.field sel f) (.field i f)
  | entry {sel : NodeSelector} {i : Nat} {n : Node} (h : sel.Picks nodes i n) (f : MapField)
      (key : String) :
      LeadsTo nodes (.entry sel f key) (.entry i f key)

/-! ### Effects of disjoint places -/

/-- The place of an edit of the node at a place. -/
def NodeEdit.place (i : Nat) : NodeEdit → PatchPlace
  | replace _ => .node i
  | set f _ => .field i f
  | bind f key _ => .entry i f key
  | remove f key => .entry i f key

theorem NodeEdit.node?_place (i : Nat) (t : NodeEdit) : (t.place i).node? = some i := by
  cases t <;> rfl

theorem NodeEdit.field?_place (i : Nat) (t : NodeEdit) : (t.place i).field? = t.field? := by
  cases t <;> rfl

/-- The place of an edit inside a node is an entry only for the edit of that entry. -/
theorem NodeEdit.isOfEntry_of_place {t : NodeEdit} {i j : Nat} {f : MapField} {key : String}
    (h : t.place i = .entry j f key) : i = j ∧ t.IsOfEntry f key := by
  cases t with
  | replace | set => cases h
  | bind f key v =>
    cases h
    exact ⟨rfl, .bind v⟩
  | remove f key =>
    cases h
    exact ⟨rfl, .remove⟩

namespace PatchEffect

/-- The place that an effect changes. -/
def place : PatchEffect → PatchPlace
  | error _ => .error
  | node i t => t.place i

variable {e e' : PatchEffect} {i j : Nat} {t t' : NodeEdit} {p : Project}

/-- Two effects on one node are one edit of it after the other. -/
theorem on_node_on_node (i : Nat) (t t' : NodeEdit) (p : Project) :
    (node i t).on ((node i t').on p) =
      { p with workflow := { p.workflow with
        nodes := p.workflow.nodes.modify i fun n ↦ t.run (t'.run n) } } := by
  simp only [on, List.modify_modify_eq, Function.comp_def]

/-- Effects on different nodes commute. -/
theorem on_comm_of_ne (h : i ≠ j) (t t' : NodeEdit) (p : Project) :
    (node i t).on ((node j t').on p) = (node j t').on ((node i t).on p) := by
  simp only [on, List.modify_modify_ne _ _ _ h]

/-- **In different nodes** effects commute. -/
theorem on_comm_of_nodes (h : e.place.node? ≠ e'.place.node?) (p : Project) :
    e.on (e'.on p) = e'.on (e.on p) := by
  cases e with
  | error m =>
    cases e' with
    | error m' => exact absurd rfl h
    | node j t' => rfl
  | node i t =>
    cases e' with
    | error m' => rfl
    | node j t' =>
      rw [place, place, NodeEdit.node?_place, NodeEdit.node?_place] at h
      exact on_comm_of_ne (fun hij ↦ h (congrArg some hij)) t t' p

/-- **In different fields** effects commute. -/
theorem on_comm_of_fields {f g : NodeField} (h : e.place.field? = some f)
    (h' : e'.place.field? = some g) (hne : f ≠ g) (p : Project) :
    e.on (e'.on p) = e'.on (e.on p) := by
  by_cases hnodes : e.place.node? = e'.place.node?
  · cases e with
    | error m => cases h
    | node i t =>
      cases e' with
      | error m' => cases h'
      | node j t' =>
        rw [place, place, NodeEdit.node?_place, NodeEdit.node?_place, Option.some.injEq] at hnodes
        rw [place, NodeEdit.field?_place] at h h'
        subst hnodes
        have hrun : (fun n ↦ t.run (t'.run n)) = fun n ↦ t'.run (t.run n) :=
          funext (NodeEdit.run_comm h h' hne)
        rw [on_node_on_node, on_node_on_node, hrun]
  · exact on_comm_of_nodes hnodes p

/-- **In one map** effects under different names commute up to the order of entries. -/
theorem alike_of_entries {f : MapField} {key key' : String} (h : e.place = .entry i f key)
    (h' : e'.place = .entry i f key') (hne : key ≠ key') (p : Project) :
    (e'.on (e.on p)).Alike (e.on (e'.on p)) := by
  cases e with
  | error m => cases h
  | node j t =>
    cases e' with
    | error m' => cases h'
    | node j' t' =>
      obtain ⟨rfl, ht⟩ := NodeEdit.isOfEntry_of_place h
      obtain ⟨rfl, ht'⟩ := NodeEdit.isOfEntry_of_place h'
      rw [on_node_on_node, on_node_on_node]
      refine ⟨forall₂_of_getElem? fun k ↦ ?_, rfl⟩
      simp only [List.getElem?_modify]
      cases p.workflow.nodes[k]? with
      | none => exact .none
      | some n =>
        refine .some ?_
        split
        · exact NodeEdit.alike_comm ht' ht hne.symm n
        · exact .refl n

/-- **In disjoint places** effects commute, but for entries of one map. -/
theorem on_comm (h : e.place.Disjoint e'.place) (hmap : ¬ e.place.InOneMap e'.place) (p : Project) :
    e.on (e'.on p) = e'.on (e.on p) := by
  generalize hx : e.place = x at h hmap
  generalize hy : e'.place = y at h hmap
  cases h with
  | nodes hnodes => exact on_comm_of_nodes (hx ▸ hy ▸ hnodes) p
  | fields hf hg hne => exact on_comm_of_fields (hx ▸ hf) (hy ▸ hg) hne p
  | entries i f hne => exact absurd (.entries i f _ _) hmap

/-- Effects on disjoint places commute up to the order of map entries: the one thing that the order
of two insertions leaves behind. -/
theorem alike_comm (h : e.place.Disjoint e'.place) (p : Project) :
    (e'.on (e.on p)).Alike (e.on (e'.on p)) := by
  by_cases hmap : e.place.InOneMap e'.place
  · generalize hx : e.place = x at h hmap
    generalize hy : e'.place = y at h hmap
    cases hmap with
    | entries i f key key' =>
      have hne : key ≠ key' := by
        rintro rfl
        cases h with
        | nodes hnodes => exact hnodes rfl
        | fields hf hg hne => exact hne (Option.some.inj (hf.symm.trans hg))
        | entries _ _ hne => exact hne rfl
      exact alike_of_entries hx hy hne p
  · rw [on_comm h hmap]
    exact .refl _

end PatchEffect

namespace PatchOp

variable {p : Project} {op a b : PatchOp} {target s t : PatchTarget} {place x y : PatchPlace}

/-- **An effect is where the target leads to.** -/
theorem place_of_verdict {e : PatchEffect} (htarget : PatchTarget.ofPath op.key = .ok target)
    (hleads : target.LeadsTo p.workflow.nodes place) (h : op.verdict p.identities = .ok e) :
    e.place = place := by
  rw [verdict, htarget] at h
  cases hleads with
  | error =>
    obtain ⟨m, -, rfl⟩ := exists_of_map_eq_ok (mapError_eq_ok_iff.1 h)
    rfl
  | node hpicks =>
    simp only at h
    -- the whole node is decoded first, and must have the identity of the one that is there
    split at h
    · cases h
    · rw [NodeSelector.seek_of_picks hpicks] at h
      split at h
      · cases h
        rfl
      · cases h
  | field hpicks f =>
    simp only [NodeSelector.seek_of_picks hpicks] at h
    obtain ⟨v, -, rfl⟩ := exists_of_map_eq_ok (mapError_eq_ok_iff.1 h)
    rfl
  | entry hpicks f key =>
    simp only [NodeSelector.seek_of_picks hpicks] at h
    obtain ⟨t, ht, rfl⟩ := exists_of_map_eq_ok (mapError_eq_ok_iff.1 h)
    rw [MapField.edit] at ht
    -- a removal and a binding are edits of the same entry
    split at ht
    · cases ht
      rfl
    · obtain ⟨v, -, rfl⟩ := exists_of_map_eq_ok ht
      rfl

/-- Two patches in either order are related if their effects are. -/
theorem performAll_pair {related : Project → Project → Prop} (hrefl : ∀ q, related q q)
    (h : ∀ e e', a.verdict p.identities = .ok e → b.verdict p.identities = .ok e' →
      related (e'.on (e.on p)) (e.on (e'.on p))) :
    related (performAll p [a, b]).1 (performAll p [b, a]).1 := by
  simp only [performAll_eq_act, List.foldl_cons, List.foldl_nil, act]
  cases ha : a.verdict p.identities with
  | error _ => exact hrefl _
  | ok e =>
    cases hb : b.verdict p.identities with
    | error _ => exact hrefl _
    | ok e' => exact h e e' ha hb

/-- **Patches of disjoint places are exchanged.** In either order they come to projects that are one
but for the order of entries in their maps, so no comparison tells them apart. They are equal if the
project has no NaN, and in general exactly if the result has none. They are one project if they are
not of two entries of one map. -/
theorem exchanged (hs : PatchTarget.ofPath a.key = .ok s) (ht : PatchTarget.ofPath b.key = .ok t)
    (hx : s.LeadsTo p.workflow.nodes x) (hy : t.LeadsTo p.workflow.nodes y)
    (hdisjoint : x.Disjoint y) :
    (performAll p [a, b]).1.Alike (performAll p [b, a]).1 ∧
      (∀ r : Project, (performAll p [a, b]).1.same r = (performAll p [b, a]).1.same r ∧
        r.same (performAll p [a, b]).1 = r.same (performAll p [b, a]).1) ∧
      (p.WellFormed (fun d ↦ d.isNaN = false) → a.value.WellFormed → b.value.WellFormed →
        (performAll p [a, b]).1.same (performAll p [b, a]).1 = true) ∧
      (p.WellFormed (fun _ ↦ True) → a.value.WellFormed → b.value.WellFormed →
        ((performAll p [a, b]).1.same (performAll p [b, a]).1 = true ↔
          (performAll p [a, b]).1.WellFormed fun d ↦ d.isNaN = false)) ∧
      (¬ x.InOneMap y → (performAll p [a, b]).1 = (performAll p [b, a]).1) := by
  have halike : (performAll p [a, b]).1.Alike (performAll p [b, a]).1 := by
    refine performAll_pair Project.Alike.refl fun e e' he he' ↦ ?_
    obtain rfl := place_of_verdict hs hx he
    obtain rfl := place_of_verdict ht hy he'
    exact PatchEffect.alike_comm hdisjoint p
  have hvalues (ha : a.value.WellFormed) (hb : b.value.WellFormed) :
      (∀ op ∈ [a, b], op.value.WellFormed) ∧ ∀ op ∈ [b, a], op.value.WellFormed := by
    simp only [List.forall_mem_cons]
    exact ⟨⟨ha, hb, List.forall_mem_nil _⟩, hb, ha, List.forall_mem_nil _⟩
  refine ⟨halike, fun r ↦ ⟨halike.same_left r, halike.same_right r⟩, fun hp ha hb ↦ ?_,
    fun hp ha hb ↦ ?_, fun hmap ↦ ?_⟩
  · exact halike.same
      (wellFormed_performAll (fun _ ↦ Double.isNaN_of_isFinite) (hvalues ha hb).2 hp)
  · exact halike.same_iff (wellFormed_performAll (fun _ _ ↦ trivial) (hvalues ha hb).1 hp)
  · refine performAll_pair (fun _ ↦ rfl) fun e e' he he' ↦ ?_
    obtain rfl := place_of_verdict hs hx he
    obtain rfl := place_of_verdict ht hy he'
    exact (PatchEffect.on_comm hdisjoint hmap p).symm

/-- An entry of the schema of a node. -/
def schemaEntry (node : Segment) (key : String) (value : Json) : PatchOp :=
  ⟨[.key "workflow", .key "nodes", node, .key "schema_out", .key key], value⟩

/-- The run time of a node. -/
def runtimeOf (node : Segment) (value : Json) : PatchOp :=
  ⟨[.key "workflow", .key "nodes", node, .key "runtime"], value⟩

theorem wellFormed_lone : lone.WellFormed fun d ↦ d.isNaN = false :=
  List.forall_mem_singleton.2 ⟨⟨rfl, rfl⟩, List.forall_mem_nil _, nofun, nofun⟩

/-- The node is named by its index and by its id. It has no schema, so the first entry makes one. -/
theorem exchanged_schemaEntries :
    let a := schemaEntry (.index 0) "x" (.bool true)
    let b := schemaEntry (.key "a") "y" (.bool true)
    let c := runtimeOf (.key "a") (.int 3)
    let schemas (p : Project) := p.workflow.nodes.map fun n ↦ n.schemaOut.map OrderedMap.keys
    schemas (performAll lone [a, b]).1 = [some ["x", "y"]] ∧
      schemas (performAll lone [b, a]).1 = [some ["y", "x"]] ∧
      (performAll lone [a, b]).1.same (performAll lone [b, a]).1 = true ∧
      (performAll lone [a, c]).1 = (performAll lone [c, a]).1 := by
  obtain ⟨n, hn, hid⟩ : ∃ n, lone.workflow.nodes[0]? = some n ∧ n.id = "a" := ⟨_, rfl, rfl⟩
  have hindex : (NodeSelector.index 0).Picks lone.workflow.nodes 0 n := .index hn
  have hkey : (NodeSelector.id "a").Picks lone.workflow.nodes 0 n :=
    .id hn hid (List.forall_mem_nil _)
  have hschema : (PatchPlace.entry 0 .schemaOut "x").Disjoint (.entry 0 .schemaOut "y") :=
    .entries 0 .schemaOut (by decide)
  have hruntime : (PatchPlace.entry 0 .schemaOut "x").Disjoint (.field 0 .runtime) :=
    .fields rfl rfl nofun
  obtain ⟨-, -, hsame, -⟩ := exchanged (a := schemaEntry (.index 0) "x" (.bool true))
    (b := schemaEntry (.key "a") "y" (.bool true)) rfl rfl (.entry hindex .schemaOut "x")
    (.entry hkey .schemaOut "y") hschema
  obtain ⟨-, -, -, -, heq⟩ := exchanged (a := schemaEntry (.index 0) "x" (.bool true))
    (b := runtimeOf (.key "a") (.int 3)) rfl rfl (.entry hindex .schemaOut "x")
    (.field hkey .runtime) hruntime
  exact ⟨rfl, rfl, hsame wellFormed_lone (.bool true) (.bool true), heq nofun⟩

/-- A project whose one node is at no number. -/
def adrift : Project :=
  let n : Node := ⟨"a", .constInt, ⟨⟨0x7FF8000000000000⟩, ⟨0⟩⟩, ∅, none, none, none, none⟩
  { lone with workflow := ⟨[n], [], none⟩ }

/-- Two patches of disjoint places do not come to equal projects if the project has a NaN. -/
theorem not_exchanged_adrift :
    ¬ ∀ (p : Project) (a b : PatchOp) (s t : PatchTarget) (x y : PatchPlace),
      PatchTarget.ofPath a.key = .ok s → PatchTarget.ofPath b.key = .ok t →
      s.LeadsTo p.workflow.nodes x → t.LeadsTo p.workflow.nodes y → x.Disjoint y →
      (performAll p [a, b]).1.same (performAll p [b, a]).1 = true ∧
        (¬ x.InOneMap y → (performAll p [a, b]).1 = (performAll p [b, a]).1) := by
  intro hall
  obtain ⟨n, hn, hid⟩ : ∃ n, adrift.workflow.nodes[0]? = some n ∧ n.id = "a" := ⟨_, rfl, rfl⟩
  have hkey : (NodeSelector.id "a").Picks adrift.workflow.nodes 0 n :=
    .id hn hid (List.forall_mem_nil _)
  have hdisjoint : (PatchPlace.entry 0 .schemaOut "x").Disjoint (.field 0 .runtime) :=
    .fields rfl rfl nofun
  obtain ⟨hsame, -⟩ := hall adrift (schemaEntry (.key "a") "x" (.bool true))
    (runtimeOf (.key "a") (.int 3)) _ _ _ _ rfl rfl (.entry hkey .schemaOut "x")
    (.field hkey .runtime) hdisjoint
  have hdiffer : (performAll adrift [schemaEntry (.key "a") "x" (.bool true),
      runtimeOf (.key "a") (.int 3)]).1.same (performAll adrift [runtimeOf (.key "a") (.int 3),
        schemaEntry (.key "a") "x" (.bool true)]).1 = false := rfl
  exact Bool.noConfusion (hsame.symm.trans hdiffer)

end PatchOp

end GraphSession
