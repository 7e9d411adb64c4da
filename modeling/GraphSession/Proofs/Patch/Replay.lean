import GraphSession.Proofs.Patch.Exchange

/-!
# Replaying patches is harmless

A message that comes twice is applied twice. The second time its patches write what they wrote the
first time, since patches are blind: whatever the project has become, every aspect of it that they
do not leave alone they make what they made it before. So the project is alike to the one after the
first time, and equal to it unless a float is no number (`PatchOp.replayed`). The patches that are
rejected are the same and for the same causes, because what decides on them does not change.

**Place by place.** A list of patches acts on every node by itself (`PatchOp.getElem?_foldl_act`),
and on each by a list of edits. This is where blindness is put together.
-/

namespace GraphSession

/-! ### Effects, node by node -/

namespace PatchEffect

/-- What an effect does to the node at a place. -/
def onNode (i : Nat) : PatchEffect → Node → Node
  | error _, n => n
  | node j t, n => if j = i then t.run n else n

/-- An effect acts on each node by itself. -/
theorem getElem?_on (e : PatchEffect) (p : Project) (i : Nat) :
    (e.on p).workflow.nodes[i]? = p.workflow.nodes[i]?.map (e.onNode i) := by
  cases e with
  | error m => exact (congrFun Option.map_id _).symm
  | node j t => exact List.getElem?_modify t.run j p.workflow.nodes i

/-- An effect leaves an aspect of a node as it is, or makes it the same whatever it was. -/
theorem blindOn_onNode (e : PatchEffect) (i : Nat) (a : NodeAspect) :
    BlindOn (e.onNode i) a.look := by
  cases e with
  | error m => exact .inl fun _ ↦ rfl
  | node j t =>
    by_cases hj : j = i
    · have hrun : (node j t).onNode i = t.run := funext fun n ↦ if_pos hj
      rw [hrun]
      exact t.blindOn_run a
    · exact .inl fun n ↦ congrArg a.look (if_neg hj)

theorem blindOn_error (e : PatchEffect) : BlindOn e.on fun p ↦ p.workflow.error := by
  cases e with
  | error m => exact .inr fun _ _ ↦ rfl
  | node i t => exact .inl fun _ ↦ rfl

end PatchEffect

namespace Project

variable {p q : Project}

/-- All of a project but its nodes and the error of its workflow. -/
def frame (p : Project) : Project :=
  { p with workflow := { p.workflow with nodes := [], error := none } }

/-- No effect reaches the frame of a project. -/
theorem frame_on (e : PatchEffect) (p : Project) : (e.on p).frame = p.frame := by
  cases e <;> rfl

/-- A project is its frame with the nodes and the error put back. -/
theorem eq_frame (p : Project) : p = { p.frame with
    workflow := { p.frame.workflow with nodes := p.workflow.nodes, error := p.workflow.error } } :=
      rfl

/-- Two projects with the same frame and error, and alike at every position, are alike. -/
theorem Alike.of_frame (hframe : p.frame = q.frame) (herror : p.workflow.error = q.workflow.error)
    (hnodes : ∀ i : Nat, Option.Rel Node.Alike p.workflow.nodes[i]? q.workflow.nodes[i]?) :
    p.Alike q where
  nodes := forall₂_of_getElem? hnodes
  rest := by
    rw [eq_frame q, ← hframe, ← herror]
    rfl

end Project

/-! ### Patches, node by node -/

namespace PatchOp

variable {p : Project} {ops : List PatchOp}

/-- What a patch does to the node at a place. -/
def actOnNode (ids : List (String × NodeKind)) (i : Nat) (op : PatchOp) (n : Node) : Node :=
  match op.verdict ids with
  | .ok e => e.onNode i n
  | .error _ => n

/-- An operation acts on each node by itself, once the identities are fixed. -/
theorem getElem?_act (ids : List (String × NodeKind)) (op : PatchOp) (p : Project) (i : Nat) :
    (op.act ids p).workflow.nodes[i]? = p.workflow.nodes[i]?.map (op.actOnNode ids i) := by
  unfold act actOnNode
  cases op.verdict ids with
  | ok e => exact e.getElem?_on p i
  | error m => exact (congrFun Option.map_id _).symm

theorem blindOn_actOnNode (ids : List (String × NodeKind)) (i : Nat) (op : PatchOp)
    (a : NodeAspect) :
    BlindOn (op.actOnNode ids i) a.look := by
  unfold actOnNode
  cases op.verdict ids with
  | ok e => exact e.blindOn_onNode i a
  | error m => exact .inl fun _ ↦ rfl

theorem blindOn_act_error (ids : List (String × NodeKind)) (op : PatchOp) :
    BlindOn (op.act ids) fun p ↦ p.workflow.error := by
  unfold act
  cases op.verdict ids with
  | ok e => exact e.blindOn_error
  | error m => exact .inl fun _ ↦ rfl

/-- No operation reaches the frame of a project. -/
theorem frame_act (ids : List (String × NodeKind)) (op : PatchOp) (p : Project) :
    (op.act ids p).frame = p.frame := by
  rw [act]
  cases op.verdict ids with
  | ok e => exact Project.frame_on e p
  | error m => rfl

/-- **A list of patches acts on every node by itself.** -/
theorem getElem?_foldl_act (ids : List (String × NodeKind)) (ops : List PatchOp) (p : Project)
    (i : Nat) :
    (ops.foldl (fun q op ↦ op.act ids q) p).workflow.nodes[i]? =
      p.workflow.nodes[i]?.map fun n ↦ ops.foldl (fun n op ↦ op.actOnNode ids i n) n := by
  induction ops generalizing p with
  | nil => exact (congrFun Option.map_id _).symm
  | cons op rest ih =>
    rw [List.foldl_cons, ih, getElem?_act, Option.map_map]
    rfl

/-- No list of operations reaches the frame of a project. -/
theorem frame_foldl_act (ids : List (String × NodeKind)) (ops : List PatchOp) (p : Project) :
    (ops.foldl (fun q op ↦ op.act ids q) p).frame = p.frame := by
  induction ops generalizing p with
  | nil => rfl
  | cons op rest ih => rw [List.foldl_cons, ih, frame_act]

/-- **A second time nothing changes,** but for the order of entries. -/
theorem alike_again (p : Project) (ops : List PatchOp) :
    (performAll (performAll p ops).1 ops).1.Alike (performAll p ops).1 := by
  -- The identities are the same the second time, so the actions are.
  rw [performAll_eq_act _ ops, identities_performAll, performAll_eq_act p ops]
  refine .of_frame (frame_foldl_act _ _ _) ?_ fun i ↦ ?_
  · exact (BlindOn.foldl fun op _ ↦ blindOn_act_error _ op).again p
  · rw [getElem?_foldl_act, getElem?_foldl_act]
    cases p.workflow.nodes[i]? with
    | none => exact .none
    | some n =>
      refine .some (Node.alike_iff.2 fun a ↦ ?_)
      exact (BlindOn.foldl fun op _ ↦ blindOn_actOnNode _ i op a).again n

/-- **Replaying patches is harmless.** A list that is applied twice comes to a project equal to the
one that it comes to once, if no float is no number. The second time it rejects what it rejects the
first time, for the same causes, at every place of the list. -/
theorem replayed (hp : p.WellFormed fun d ↦ d.isNaN = false)
    (hops : ∀ op ∈ ops, op.value.WellFormed) :
    (performAll (performAll p ops).1 ops).1.same (performAll p ops).1 = true ∧
      (performAll (performAll p ops).1 ops).2 = (performAll p ops).2 ∧
      ∀ (i : Nat) (op : PatchOp), ops[i]? = some op →
        op.fault? (performAll (performAll p ops).1 (ops.take i)).1 =
          op.fault? (performAll p (ops.take i)).1 := by
  refine ⟨?_, ?_, fun i op _ ↦ ?_⟩
  · exact (alike_again p ops).same
      (wellFormed_performAll (fun _ ↦ Double.isNaN_of_isFinite) hops hp)
  · rw [faults_eq_filterMap _ ops, faults_eq_filterMap p ops]
    exact List.filterMap_congr fun op _ ↦ fault?_performAll op p ops
  · rw [fault?_performAll, fault?_performAll, fault?_performAll]

/-- An entry is removed that is not there, two are written, and a number is refused as a handle. -/
def rebinding : List PatchOp :=
  [schemaEntry (.index 0) "q" .null, schemaEntry (.index 0) "q" (.int 1), strayHandle,
    schemaEntry (.key "a") "r" (.int 2)]

/-- The second time the first entry goes and comes back behind the other one. -/
theorem replayed_rebinding :
    let once := performAll lone rebinding
    let twice := performAll once.1 rebinding
    let schemas (p : Project) := p.workflow.nodes.map fun n ↦ n.schemaOut.map OrderedMap.keys
    schemas once.1 = [some ["q", "r"]] ∧ schemas twice.1 = [some ["r", "q"]] ∧
      twice.1.same once.1 = true ∧
      once.2.length = 1 ∧ twice.2 = once.2 ∧ rebinding[2]? = some strayHandle ∧
      strayHandle.fault? (performAll once.1 (rebinding.take 2)).1 =
        strayHandle.fault? (performAll lone (rebinding.take 2)).1 := by
  have hvalues : ∀ op ∈ rebinding, op.value.WellFormed := by
    simp only [rebinding, List.forall_mem_cons]
    exact ⟨.null, .int ⟨by decide, by decide⟩, .int ⟨by decide, by decide⟩,
      .int ⟨by decide, by decide⟩, List.forall_mem_nil _⟩
  obtain ⟨hsame, hcauses, hplaces⟩ := replayed wellFormed_lone hvalues
  exact ⟨rfl, rfl, hsame, rfl, hcauses, rfl, hplaces 2 strayHandle rfl⟩

end PatchOp

end GraphSession
