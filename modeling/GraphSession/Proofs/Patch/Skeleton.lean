import Mathlib.Tactic.SplitIfs
import GraphSession.Patch.Apply

/-!
# Patches keep the skeleton

The skeleton of a workflow is the part that its editor alone decides: ids and kinds of the nodes in
their order, and the edges. A patch writes the error of the workflow or puts one node in the place
of another, and a node is only ever replaced by one of the same identity: the fields and entries
that can be written leave it out, and a whole node with another identity is refused. So no patch
changes the skeleton (`PatchOp.skeleton_apply`), and no list of patches does
(`PatchOp.skeleton_applyAll`).
-/

namespace GraphSession

/-- What a node keeps as long as it lives. -/
def Node.identity (n : Node) : String × NodeKind := (n.id, n.kind)

/-- The identities of the nodes in their order, and the edges. -/
def Workflow.skeleton (w : Workflow) : List (String × NodeKind) × List Edge :=
  (w.nodes.map Node.identity, w.edges)

namespace Node

variable {n n' : Node}

/-- A node that is changed with a value, if the value decodes, keeps its identity if every value
leaves it. -/
theorem identity_of_map {ε α : Type} {x : Except ε α} {f : α → Node} (h : x.map f = .ok n')
    (hf : ∀ a, (f a).identity = n.identity) : n'.identity = n.identity := by
  cases x with
  | error e => cases h
  | ok a =>
    cases h
    exact hf a

/-- Assigning a field keeps the identity of the node. -/
theorem identity_of_set {f : NodeField} {value : Json} (h : f.set value n = .ok n') :
    n'.identity = n.identity := by
  cases f <;> exact identity_of_map h fun _ ↦ rfl

/-- Assigning an entry keeps the identity of the node. -/
theorem identity_of_setEntry {f : MapField} {key : String} {value : Json}
    (h : f.setEntry key value n = .ok n') : n'.identity = n.identity := by
  cases f with
  | param | schemaOut =>
    rw [MapField.setEntry] at h
    split_ifs at h <;> cases h <;> rfl
  | dataOut =>
    rw [MapField.setEntry] at h
    split_ifs at h
    · cases h
      rfl
    · exact identity_of_map h fun _ ↦ rfl

end Node

theorem mapError_eq_ok_iff {ε ε' α : Type} {x : Except ε α} {f : ε → ε'} {a : α} :
    x.mapError f = .ok a ↔ x = .ok a := by
  cases x <;> simp [Except.mapError]

variable {p p' : Project}

/-- **One node is edited** in its place, so an edit that keeps identities keeps the skeleton. -/
theorem Project.skeleton_editNode {sel : NodeSelector} {edit : Node → Except PatchFault Node}
    (h : p.editNode sel edit = .ok p')
    (hedit : ∀ n n', edit n = .ok n' → n'.identity = n.identity) :
    p'.workflow.skeleton = p.workflow.skeleton := by
  unfold editNode at h
  split at h
  · cases h
  · rename_i i _
    split at h
    · cases h
    · rename_i n hn
      cases hn' : edit n with
      | error e =>
        rw [hn'] at h
        cases h
      | ok n' =>
        rw [hn'] at h
        cases h
        obtain ⟨hi, rfl⟩ := List.getElem?_eq_some_iff.1 hn
        have hsame : (p.workflow.nodes.map Node.identity).set i n'.identity =
            p.workflow.nodes.map Node.identity := by
          rw [hedit _ _ hn', ← List.map_set, List.set_getElem_self]
        simp only [Workflow.skeleton, List.map_set, hsame]

namespace PatchOp

/-- A write to any target keeps the skeleton of the workflow. -/
theorem skeleton_write {value : Json} {path : String} {target : PatchTarget}
    (h : write value path p target = .ok p') : p'.workflow.skeleton = p.workflow.skeleton := by
  cases target with
  | workflowError =>
    rw [write] at h
    split at h <;> cases h
    rfl
  | node sel =>
    rw [write] at h
    split at h
    · cases h
    · refine Project.skeleton_editNode h fun n n' hedit ↦ ?_
      split_ifs at hedit with hsame
      cases hedit
      exact Prod.ext hsame.1 hsame.2
  | field sel f =>
    exact Project.skeleton_editNode h fun n n' hedit ↦
      Node.identity_of_set (mapError_eq_ok_iff.1 hedit)
  | entry sel f key =>
    exact Project.skeleton_editNode h fun n n' hedit ↦
      Node.identity_of_setEntry (mapError_eq_ok_iff.1 hedit)

/-- **One patch.** -/
theorem skeleton_apply {op : PatchOp} (h : apply p op = .ok p') :
    p'.workflow.skeleton = p.workflow.skeleton := by
  unfold apply at h
  split at h
  · cases h
  · exact skeleton_write h

/-- **Patches in order**, accepted or not. -/
theorem skeleton_applyAll (p : Project) (ops : List PatchOp) :
    (applyAll p ops).1.workflow.skeleton = p.workflow.skeleton := by
  induction ops generalizing p with
  | nil => rfl
  | cons op rest ih =>
    rw [applyAll]
    cases h : apply p op with
    | error e => exact ih p
    | ok p' => exact (ih p').trans (skeleton_apply h)

end PatchOp

end GraphSession
