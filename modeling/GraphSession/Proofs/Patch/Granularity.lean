import GraphSession.Proofs.Patch.WellFormed
import GraphSession.Proofs.Project.Survival

/-!
# One change, three patches

A change inside a node can be told as an entry, as a field or as the whole node. The coarser patches
carry the value that the place has after the finer one, and all three come to the same project, down
to the order of map entries (`PatchOp.granularities_agree`).

**Whatever a node holds can be said.** This rests on the encodings: what a field holds is recovered
from its value (`NodeField.recovers`), and so is a node, if floats are finite. No text is involved,
so nothing is asked of the floats beyond that. That the node after the patch is such a node is what
`PatchOp.wellFormed_settle` is for.
-/

namespace GraphSession

/-- The value of what a field holds. -/
def NodeField.encode : (f : NodeField) → f.Content → Json
  | position, p => p.encode
  | param, m => .ofMap m
  | runtime, r => .ofOption .ofDouble r
  | schemaOut, m => .ofOption .ofMap m
  | dataOut, m => .ofOption encodeHandles m
  | fault, e => .ofOption NodeFault.encode e

/-- **A field is recovered from its value,** also one that holds nothing. -/
theorem NodeField.recovers {f : NodeField} {v : f.Content}
    (h : f.WellFormed (fun d ↦ d.isFinite = true) v) :
    Recovers f.encode f.decode v := by
  cases f with
  | position => exact Position.recovers h
  | param =>
    have hmap : Tree.map Tree.freeForm (Tree.ofJson (.ofMap v)) = .ok v := Tree.freeMap_recovers h
    have hnull : Tree.ofJson (.ofMap v) ≠ .null := nofun
    change (Tree.optional (Tree.map Tree.freeForm) (Tree.ofJson (.ofMap v))).map
      (fun m ↦ m.getD ∅) = .ok v
    rw [Record.optional_of_ne_null hnull, hmap]
    rfl
  | runtime =>
    exact Record.optional_recovers (fun d hd ↦ Tree.double_recovers (h d hd)) fun d hd ↦
      Json.ofDouble_ne_null (h d hd)
  | schemaOut =>
    exact Record.optional_recovers (fun m hm ↦ Tree.freeMap_recovers (h m hm)) fun _ _ ↦ nofun
  | dataOut => exact Record.optional_recovers (fun m _ ↦ handles_recovers m) fun _ _ ↦ nofun
  | fault =>
    exact Record.optional_recovers (fun e _ ↦ NodeFault.recovers e) fun e _ ↦
      NodeFault.encode_ne_null e

/-- A node with one field changed, by a value of the field or by an entry of it. -/
structure NodeField.Changes (f : NodeField) (n n' : Node) : Prop where
  identity : n'.identity = n.identity
  others : ∀ g : NodeField, g ≠ f → g.get n' = g.get n

/-- Then the field is set to the value that it has. -/
theorem NodeField.Changes.sets {f : NodeField} {n n' : Node} (h : f.Changes n n')
    (hn' : n'.WellFormed fun d ↦ d.isFinite = true) : f.Sets (f.encode (f.get n')) n n' where
  identity := h.identity
  others := h.others
  decoded := NodeField.recovers (Node.wellFormed_iff.1 hn' f)
  cleared hnull := by
    have hdecoded : f.decode (Tree.ofJson (f.encode (f.get n'))) = .ok (f.get n') :=
      NodeField.recovers (Node.wellFormed_iff.1 hn' f)
    rw [hnull] at hdecoded
    exact NodeField.isCleared_of_decode_null hdecoded

/-- A place is a field of the node that a selector names, or an entry of it. -/
inductive PatchTarget.IsInField (sel : NodeSelector) : NodeField → PatchTarget → Prop
  | field (f : NodeField) : IsInField sel f (.field sel f)
  | entry (f : MapField) (key : String) : IsInField sel f.field (.entry sel f key)

/-- A write inside a field, whole or by entry, is an edit of that one field. -/
theorem Project.edited_of_written {p p' : Project} {value : Json} {sel : NodeSelector}
    {f : NodeField} {target : PatchTarget} (htarget : target.IsInField sel f)
    (h : target.Written value p p') :
    p.Edited sel f.Changes p' := by
  cases htarget with
  | field =>
    obtain ⟨i, n, n', hpicks, hsets, hchanged⟩ := h
    exact ⟨i, n, n', hpicks, ⟨hsets.identity, hsets.others⟩, hchanged⟩
  | entry g key =>
    obtain ⟨i, n, n', hpicks, hsets, hchanged⟩ := h
    exact ⟨i, n, n', hpicks, ⟨hsets.identity, hsets.others⟩, hchanged⟩

namespace PatchOp

/-- An accepted operation settles as its result. -/
theorem settle_of_apply {p p' : Project} {op : PatchOp} (h : apply p op = .ok p') :
    settle p op = p' := by
  rw [settle, run_perform, h]
  rfl

/-- **The three granularities agree.** What an accepted patch of a field or of an entry does to a
node, the patch of the field with its new value does, and so does the patch of the whole node with
its new value, however the node is named in it. Both are accepted on the project as it was, and come
to the same project. -/
theorem granularities_agree {p p' : Project} {op : PatchOp} {target : PatchTarget}
    {sel : NodeSelector} {f : NodeField} (hp : p.WellFormed fun d ↦ d.isFinite = true)
    (hop : op.value.WellFormed) (htarget : PatchTarget.ofPath op.key = .ok target)
    (hfield : target.IsInField sel f) (h : apply p op = .ok p') :
    ∃ i n n', sel.Picks p.workflow.nodes i n ∧ f.Changes n n' ∧ p.ChangedAt i n' p' ∧
      ∀ sel' : NodeSelector, sel'.Picks p.workflow.nodes i n →
        (∀ path, PatchTarget.ofPath path = .ok (.field sel' f) →
          apply p ⟨path, f.encode (f.get n')⟩ = .ok p') ∧
        ∀ path, PatchTarget.ofPath path = .ok (.node sel') →
        apply p ⟨path, n'.encode⟩ = .ok p' := by
  obtain ⟨target', htarget', hwritten⟩ := apply_eq_ok_iff_written.1 h
  obtain rfl : target' = target := Except.ok.inj (htarget'.symm.trans htarget)
  obtain ⟨i, n, n', hpicks, hchanges, hchanged⟩ := Project.edited_of_written hfield hwritten
  have hp' : p'.WellFormed fun d ↦ d.isFinite = true :=
    settle_of_apply h ▸ wellFormed_settle (fun _ hd ↦ hd) hop hp
  have hn' : n'.WellFormed fun d ↦ d.isFinite = true := hp' n' (List.mem_of_getElem? hchanged.there)
  refine ⟨i, n, n', hpicks, hchanges, hchanged, fun sel' hpicks' ↦
    ⟨fun path hpath ↦ ?_, fun path hpath ↦ ?_⟩⟩
  · exact apply_eq_ok_iff_written.2 ⟨_, hpath, i, n, n', hpicks', hchanges.sets hn', hchanged⟩
  · exact apply_eq_ok_iff_written.2
      ⟨_, hpath, i, n, n', hpicks', ⟨Node.recovers hn', hchanges.identity⟩, hchanged⟩

/-- A node with three parameters, a run time and an empty schema. -/
def threeParams : Project :=
  let params : List (String × Json) := [("a", .int 1), ("b", .arr [.null]), ("c", .str "x")]
  let n : Node := ⟨"n", .plotBar, ⟨⟨0⟩, ⟨0x8000000000000000⟩⟩, .ofList params, some ⟨1⟩, some ∅,
    none, none⟩
  { id := 1, name := "demo", owner := 7, updatedAt := default, thumbnail := none,
    workflow := ⟨[n], [], none⟩ }

theorem wellFormed_threeParams : threeParams.WellFormed fun d ↦ d.isFinite = true := by
  refine List.forall_mem_singleton.2 ⟨⟨by decide, by decide⟩, ?_, ?_, ?_⟩
  · change ∀ e ∈ [("a", Json.int 1), ("b", .arr [.null]), ("c", .str "x")], e.2.WellFormed
    simp only [List.forall_mem_cons]
    exact ⟨.int ⟨by decide, by decide⟩, .arr (List.forall_mem_singleton.2 .null), .str _,
      List.forall_mem_nil _⟩
  · rintro d ⟨⟩
    decide
  · rintro m ⟨⟩
    exact List.forall_mem_nil _

/-- The first parameter is removed, and the last one takes its place. -/
def removeFirst : PatchOp :=
  ⟨[.key "workflow", .key "nodes", .index 0, .key "param", .key "a"], .null⟩

theorem granularities_agree_threeParams :
    threeParams.WellFormed (fun d ↦ d.isFinite = true) ∧ removeFirst.value.WellFormed ∧
      ∃ p', apply threeParams removeFirst = .ok p' ∧
        p'.workflow.nodes.map (fun n ↦ n.param.keys) = [["c", "b"]] ∧
        ∃ n', p'.workflow.nodes[0]? = some n' ∧
          apply threeParams ⟨[.key "workflow", .key "nodes", .key "n", .key "param"],
            .ofMap n'.param⟩ = .ok p' ∧
          apply threeParams ⟨[.key "workflow", .key "nodes", .key "n"], n'.encode⟩ = .ok p' := by
  obtain ⟨p', haccepted, hkeys⟩ : ∃ p', apply threeParams removeFirst = .ok p' ∧
      p'.workflow.nodes.map (fun n ↦ n.param.keys) = [["c", "b"]] := ⟨_, rfl, rfl⟩
  obtain ⟨i, n, n', hpicks, -, hchanged, hagree⟩ :=
    granularities_agree wellFormed_threeParams .null rfl (.entry .param "a") haccepted
  obtain ⟨hfirst⟩ := hpicks
  obtain ⟨hfield, hnode⟩ := hagree (.id "n") (.id hfirst (by cases hfirst; rfl) nofun)
  exact ⟨wellFormed_threeParams, .null, p', haccepted, hkeys, n', hchanged.there, hfield _ rfl,
    hnode _ rfl⟩

end PatchOp

end GraphSession
