import GraphSession.Proofs.Patch.Effect
import GraphSession.Proofs.Patch.Rejection

/-!
# The skeleton decides

What a patch comes to can be told without most of the project: which node a selector names, and
whether a node may be replaced, is a matter of ids and kinds, and everything else is a matter of the
value. So there is a verdict on a patch from the identities of the nodes alone, `PatchOp.verdict`,
and it is either the cause of a rejection or an effect, which can be had on any project with these
identities (`PatchOp.apply_eq_verdict`).

**Patches do not judge one another.** No patch changes the identities, so among many a patch gets
the verdict that it gets alone on the project that they all started from (`PatchOp.rejected_alone`).
-/

namespace GraphSession

/-- What an accepted patch does to a node. -/
inductive NodeEdit where
  | replace (n : Node)
  | set (f : NodeField) (v : f.Content)
  | bind (f : MapField) (key : String) (v : f.Item)
  | remove (f : MapField) (key : String)

/-- The node after an edit. -/
def NodeEdit.run : NodeEdit → Node → Node
  | replace n', _ => n'
  | set f v, n => f.put v n
  | bind f key v, n => f.field.put (f.bind key v (f.field.get n)) n
  | remove f key, n => f.field.put (f.unbind key (f.field.get n)) n

/-- What an accepted patch does to a project. -/
inductive PatchEffect where
  | error (e : Option String)
  | node (i : Nat) (t : NodeEdit)

/-- The project after an effect. -/
def PatchEffect.on : PatchEffect → Project → Project
  | error e, p => { p with workflow := { p.workflow with error := e } }
  | node i t, p =>
      { p with workflow := { p.workflow with nodes := p.workflow.nodes.modify i t.run } }

/-- The identities of the nodes in their order. -/
def Project.identities (p : Project) : List (String × NodeKind) :=
  p.workflow.nodes.map Node.identity

/-- The edit that makes an entry what a value says. -/
def MapField.edit (f : MapField) (key : String) (value : Json) : Except Mismatch NodeEdit :=
  if value.isNull then .ok (.remove f key) else (f.decodeItem value).map (.bind f key)

namespace NodeSelector

/-- The place of the node that a selector names, from the identities of the nodes. -/
def place? (ids : List (String × NodeKind)) : NodeSelector → Option Nat
  | .index n => if n < ids.length then some n else none
  | .id s => ids.findIdx? fun id ↦ id.1 = s

/-- A selector finds its node from the identities of the nodes alone. -/
theorem position?_eq (sel : NodeSelector) (p : Project) :
    sel.position? p.workflow.nodes = sel.place? p.identities := by
  cases sel with
  | index n => rw [position?, place?, Project.identities, List.length_map]
  | id s =>
    rw [position?, place?, Project.identities, List.findIdx?_map]
    rfl

/-- An effect on the node that a selector names, if there is one. -/
def seek (sel : NodeSelector) (ids : List (String × NodeKind))
    (effect : Nat → Except PatchFault PatchEffect) :
    Except PatchFault PatchEffect :=
  match sel.place? ids with
  | none => .error (.nodeNotFound sel.text)
  | some i => effect i

/-- Where a selector picks a node, seeking hands on its position. -/
theorem seek_of_picks {sel : NodeSelector} {p : Project} {i : Nat} {n : Node}
    (h : sel.Picks p.workflow.nodes i n) (effect : Nat → Except PatchFault PatchEffect) :
    sel.seek p.identities effect = effect i := by
  rw [seek, ← position?_eq, (picks_iff.1 h).1]

end NodeSelector

/-- What comes of a patch on any project whose nodes have these identities. -/
def PatchOp.verdict (ids : List (String × NodeKind)) (op : PatchOp) :
    Except PatchFault PatchEffect :=
  let invalid (m : Mismatch) : PatchFault := .invalidValue op.key.text m.message
  match PatchTarget.ofPath op.key with
  | .error e => .error e
  | .ok .workflowError =>
    ((Tree.optional Tree.string (Tree.ofJson op.value)).map .error).mapError invalid
  | .ok (.node sel) =>
    match Node.decode (Tree.ofJson op.value) with
    | .error m => .error (invalid m)
    | .ok n => sel.seek ids fun i ↦
        if ids[i]? = some n.identity then .ok (.node i (.replace n))
        else .error (.immutable op.key.text)
  | .ok (.field sel f) => sel.seek ids fun i ↦
      ((f.decode (Tree.ofJson op.value)).map fun v ↦ .node i (.set f v)).mapError invalid
  | .ok (.entry sel f key) =>
    sel.seek ids fun i ↦ ((f.edit key op.value).map (.node i)).mapError invalid

/-- What a patch does to a project whose nodes have these identities. -/
def PatchOp.act (ids : List (String × NodeKind)) (op : PatchOp) (p : Project) : Project :=
  match op.verdict ids with
  | .ok e => e.on p
  | .error _ => p

/-! ### The verdict is what happens -/

/-- Assigning an entry is the edit that its value calls for. -/
theorem MapField.setEntry_eq_edit (f : MapField) (key : String) (value : Json) (n : Node) :
    f.setEntry key value n = (f.edit key value).map fun t ↦ t.run n := by
  rw [setEntry_eq, edit]
  split
  · rfl
  · cases f.decodeItem value <;> rfl

namespace Project

variable {p : Project} {i : Nat} {n : Node}

theorem identities_getElem? (h : p.workflow.nodes[i]? = some n) :
    p.identities[i]? = some n.identity := by
  rw [identities, List.getElem?_map, h, Option.map_some]

theorem on_node (h : p.workflow.nodes[i]? = some n) (t : NodeEdit) :
    (PatchEffect.node i t).on p = p.setNode i (t.run n) := by
  obtain ⟨hi, rfl⟩ := List.getElem?_eq_some_iff.1 h
  rw [PatchEffect.on, setNode, List.modify_eq_set_get t.run hi]
  rfl

/-- **A node is edited** as it is sought by the identities, if the edit of every node is the effect
at its place. -/
theorem editNode_eq_seek {sel : NodeSelector} {edit : Node → Except PatchFault Node}
    {effect : Nat → Except PatchFault PatchEffect}
    (h : ∀ i n, p.workflow.nodes[i]? = some n →
      (edit n).map (fun n' ↦ p.setNode i n') = (effect i).map fun e ↦ e.on p) :
    p.editNode sel edit = (sel.seek p.identities effect).map fun e ↦ e.on p := by
  rw [editNode, NodeSelector.seek, ← NodeSelector.position?_eq]
  cases hi : sel.position? p.workflow.nodes with
  | none => rfl
  | some i =>
    obtain ⟨n, hn⟩ := NodeSelector.exists_of_position? hi
    simp only [hn]
    exact h i n hn

end Project

namespace PatchOp

variable {p q : Project} {op : PatchOp} {ops : List PatchOp}

/-- **A patch is the effect of its verdict,** or it is rejected with it. -/
theorem apply_eq_verdict (p : Project) (op : PatchOp) :
    apply p op = (op.verdict p.identities).map fun e ↦ e.on p := by
  rw [apply, verdict]
  cases PatchTarget.ofPath op.key with
  | error e => rfl
  | ok target =>
    cases target with
    | workflowError =>
      simp only [write]
      cases Tree.optional Tree.string (Tree.ofJson op.value) <;> rfl
    | node sel =>
      simp only [write]
      cases Node.decode (Tree.ofJson op.value) with
      | error m => rfl
      | ok n' =>
        refine Project.editNode_eq_seek fun i n hn ↦ ?_
        -- what must stay of a node is its identity
        have hsame : p.identities[i]? = some n'.identity ↔ n'.id = n.id ∧ n'.kind = n.kind := by
          rw [Project.identities_getElem? hn, Option.some.injEq, eq_comm, Node.identity,
            Node.identity, Prod.mk.injEq]
        simp only [hsame]
        split
        · exact congrArg Except.ok (Project.on_node hn (.replace n')).symm
        · rfl
    | field sel f =>
      refine Project.editNode_eq_seek fun i n hn ↦ ?_
      rw [NodeField.set_eq]
      cases f.decode (Tree.ofJson op.value) with
      | error m => rfl
      | ok v => exact congrArg Except.ok (Project.on_node hn (.set f v)).symm
    | entry sel f key =>
      refine Project.editNode_eq_seek fun i n hn ↦ ?_
      rw [MapField.setEntry_eq_edit]
      cases f.edit key op.value with
      | error m => rfl
      | ok t => exact congrArg Except.ok (Project.on_node hn t).symm

/-- An operation acts on a project as its verdict on the identities says. -/
theorem settle_eq_act (p : Project) (op : PatchOp) : settle p op = op.act p.identities p := by
  rw [settle, run_perform, apply_eq_verdict, act]
  cases op.verdict p.identities <;> rfl

/-- An operation is at fault exactly when its verdict is, and with the same fault. -/
theorem fault?_eq (p : Project) (op : PatchOp) : op.fault? p =
    match op.verdict p.identities with
    | .ok _ => none
    | .error e => some e := by
  rw [fault?, run_perform, apply_eq_verdict]
  cases op.verdict p.identities <;> rfl

/-! ### Patches do not judge one another -/

/-- No list of operations changes the identities of the nodes. -/
theorem identities_performAll (p : Project) (ops : List PatchOp) :
    (performAll p ops).1.identities = p.identities := by
  rw [performAll_eq_applyAll]
  exact congrArg Prod.fst (skeleton_applyAll p ops)

theorem identities_settle (p : Project) (op : PatchOp) :
    (settle p op).identities = p.identities := by
  have hone : settle p op = (performAll p [op]).1 := by
    rw [performAll_eq, List.foldl_cons, List.foldl_nil]
  rw [hone, identities_performAll]

/-- **Many patches are actions in order,** which are known before the first one. -/
theorem performAll_eq_act (p : Project) (ops : List PatchOp) :
    (performAll p ops).1 = ops.foldl (fun q op ↦ op.act p.identities q) p := by
  rw [performAll_eq]
  suffices h : ∀ q : Project, q.identities = p.identities →
      ops.foldl settle q = ops.foldl (fun q op ↦ op.act p.identities q) q from h p rfl
  induction ops with
  | nil => exact fun q _ ↦ rfl
  | cons op rest ih =>
    intro q hq
    have hsettle : settle q op = op.act p.identities q := by rw [settle_eq_act, hq]
    rw [List.foldl_cons, List.foldl_cons, ← hsettle]
    exact ih _ ((identities_settle q op).trans hq)

/-- After any patches, a patch is judged as before. -/
theorem fault?_performAll (op : PatchOp) (p : Project) (ops : List PatchOp) :
    op.fault? (performAll p ops).1 = op.fault? p := by
  rw [fault?_eq, fault?_eq, identities_performAll]

/-- The faults of a list of operations are those of its operations, each taken alone against the
first project. -/
theorem faults_eq_filterMap (p : Project) (ops : List PatchOp) :
    (performAll p ops).2 = ops.filterMap fun op ↦ op.fault? p := by
  induction ops generalizing p with
  | nil => rfl
  | cons op rest ih =>
    have hrest : (performAll (settle p op) rest).2 = rest.filterMap fun op ↦ op.fault? p := by
      rw [ih]
      exact List.filterMap_congr fun other _ ↦ by rw [fault?_eq, fault?_eq, identities_settle]
    rw [performAll_eq] at hrest
    rw [performAll_eq, faults_cons, show faults (settle p op) rest = _ from hrest,
      List.filterMap_cons]
    cases op.fault? p <;> rfl

/-- **Among others a patch is judged as it is alone.** At every place of a list it gets the verdict
that it gets on the project before the list, so the causes are those of the patches one by one.
Hence it gets the same verdict in every list that it is in, and another order of the list rejects
the same for the same causes. -/
theorem rejected_alone (p : Project) (ops : List PatchOp) :
    (∀ (i : Nat) (op : PatchOp), ops[i]? = some op →
        op.fault? (performAll p (ops.take i)).1 = op.fault? p) ∧
      (performAll p ops).2 = ops.filterMap (fun op ↦ op.fault? p) ∧
      (∀ (other : List PatchOp) (i j : Nat) (op : PatchOp),
        ops[i]? = some op → other[j]? = some op →
        op.fault? (performAll p (other.take j)).1 = op.fault? (performAll p (ops.take i)).1) ∧
      ∀ other : List PatchOp, other.Perm ops →
      (performAll p other).2.Perm (performAll p ops).2 := by
  refine ⟨fun i op _ ↦ fault?_performAll op p _, faults_eq_filterMap p ops, fun other i j op _ _ ↦
    ?_, fun other hother ↦ ?_⟩
  · rw [fault?_performAll, fault?_performAll]
  · rw [faults_eq_filterMap, faults_eq_filterMap]
    exact hother.filterMap _

/-- The lone node is replaced by one of its kind, then by one of another kind; a number is refused
as a handle, and a node is missed. -/
def mixedOps : List PatchOp :=
  let replacement (kind : NodeKind) : Node :=
    ⟨"a", kind, ⟨⟨0⟩, ⟨0⟩⟩, ∅, none, some ∅, some ∅, some (.execution ["boom"])⟩
  [⟨[.key "workflow", .key "nodes", .index 0], (replacement .constInt).encode⟩,
    ⟨[.key "workflow", .key "nodes", .key "a"], (replacement .plotBar).encode⟩, strayHandle,
    ⟨[.key "workflow", .key "nodes", .index 1, .key "runtime"], .null⟩]

theorem rejected_alone_mixed :
    (∃ e, strayHandle.fault? lone = some e) ∧ mixedOps[2]? = some strayHandle ∧
      strayHandle.fault? (performAll lone (mixedOps.take 2)).1 = strayHandle.fault? lone ∧
      mixedOps.reverse[1]? = some strayHandle ∧
      strayHandle.fault? (performAll lone (mixedOps.reverse.take 1)).1 =
        strayHandle.fault? (performAll lone (mixedOps.take 2)).1 ∧
      mixedOps.reverse.Perm mixedOps ∧
      (performAll lone mixedOps.reverse).2.Perm (performAll lone mixedOps).2 := by
  have hthird : mixedOps[2]? = some strayHandle := rfl
  have hsecond : mixedOps.reverse[1]? = some strayHandle := rfl
  obtain ⟨halone, -, hlists, horder⟩ := rejected_alone lone mixedOps
  exact ⟨⟨_, rfl⟩, hthird, halone 2 _ hthird, hsecond, hlists _ 2 1 _ hthird hsecond,
    mixedOps.reverse_perm, horder _ mixedOps.reverse_perm⟩

end PatchOp

end GraphSession
