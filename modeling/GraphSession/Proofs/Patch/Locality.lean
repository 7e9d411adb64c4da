import GraphSession.Patch.Apply

/-!
# Patches change the workflow only

What a patch does depends on the workflow of the project alone, and nothing but the workflow
changes. So patches may be thought of as acting on workflows (`PatchOp.applyAll_eq`).
-/

namespace GraphSession

variable {p q : Project}

/-- An edit of a node depends on the workflow alone, so that it passes through a change of the rest
of the project. -/
theorem Project.editNode_eq (h : q.workflow = p.workflow) (sel : NodeSelector)
    (edit : Node → Except PatchFault Node) :
    q.editNode sel edit = (p.editNode sel edit).map fun r ↦ { q with workflow := r.workflow } := by
  unfold editNode
  rw [h]
  split
  · rfl
  · split
    · rfl
    · rename_i n _
      cases edit n <;> rfl

namespace PatchOp

/-- **One patch.** It is accepted on both projects or on none, for the same cause. -/
theorem apply_eq (h : q.workflow = p.workflow) (op : PatchOp) :
    apply q op = (apply p op).map fun r ↦ { q with workflow := r.workflow } := by
  unfold apply
  split
  · rfl
  · rename_i target _
    cases target with
    | workflowError =>
      simp only [write]
      split
      · rfl
      · rw [h]
        rfl
    | node sel =>
      simp only [write]
      split
      · rfl
      · exact Project.editNode_eq h sel _
    | field sel f => exact Project.editNode_eq h sel _
    | entry sel f key => exact Project.editNode_eq h sel _

/-- **Patches in order.** -/
theorem applyAll_eq (h : q.workflow = p.workflow) (ops : List PatchOp) :
    applyAll q ops = ({ q with workflow := (applyAll p ops).1.workflow }, (applyAll p ops).2) := by
  induction ops generalizing p q with
  | nil =>
    rw [applyAll, applyAll, ← h]
  | cons op rest ih =>
    rw [applyAll, applyAll, apply_eq h op]
    cases apply p op with
    | error e =>
      simp only [Except.map]
      rw [ih h]
    | ok p' =>
      simp only [Except.map]
      exact ih rfl

end PatchOp

end GraphSession
