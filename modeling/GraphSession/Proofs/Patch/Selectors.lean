import Mathlib.Data.List.Forall2
import GraphSession.Proofs.Patch.Verdict

/-!
# A node by its index and by its id

A path names a node by its index or by its id, and the first node with an id has both names. It
makes no difference which of the two the paths of a list of patches use (`PatchOp.selectors_agree`):
the project comes out the same, patches are rejected at the same places of the list, and the causes
differ at most in the text of the path (`PatchFault.SameKind`).

**The names stay good.** A name is looked up anew for each patch, in a project that the patches
before it have changed. But ids do not change, so a verdict from the identities is all there is to
compare (`PatchOp.agree_verdict`). Nothing is read into an id: if it looks like a number, it is not
the index of that number.
-/

namespace GraphSession

/-! ### Spelling -/

/-- Two paths differ at most in how they name the node at place `i`, which has the id `s`. -/
inductive PatchPath.Respelled (i : Nat) (s : String) : PatchPath → PatchPath → Prop
  | same (path : PatchPath) : Respelled i s path path
  | byId (rest : PatchPath) : Respelled i s (.key "workflow" :: .key "nodes" :: .index i :: rest)
      (.key "workflow" :: .key "nodes" :: .key s :: rest)
  | byIndex (rest : PatchPath) : Respelled i s (.key "workflow" :: .key "nodes" :: .key s :: rest)
      (.key "workflow" :: .key "nodes" :: .index i :: rest)

/-- Two patches write the same value, with paths that differ at most in how they name a node. -/
structure PatchOp.Respelled (i : Nat) (s : String) (op op' : PatchOp) : Prop where
  key : op.key.Respelled i s op'.key
  value : op.value = op'.value

/-- Causes of one kind, which differ at most in the text of the path. -/
inductive PatchFault.SameKind : PatchFault → PatchFault → Prop
  | unknownPath (path path' : String) : SameKind (.unknownPath path) (.unknownPath path')
  | nodeNotFound (node : String) : SameKind (.nodeNotFound node) (.nodeNotFound node)
  | immutable (path path' : String) : SameKind (.immutable path) (.immutable path')
  | malformed (path path' m : String) : SameKind (.malformed path m) (.malformed path' m)
  | invalidValue (path path' m : String) : SameKind (.invalidValue path m) (.invalidValue path' m)

theorem PatchFault.SameKind.refl (e : PatchFault) : e.SameKind e := by
  cases e <;> constructor

/-- Two targets are the same place of a node under one selector and under another. -/
inductive PatchTarget.SameInside (a b : NodeSelector) : PatchTarget → PatchTarget → Prop
  | node : SameInside a b (.node a) (.node b)
  | field (f : NodeField) : SameInside a b (.field a f) (.field b f)
  | entry (f : MapField) (key : String) : SameInside a b (.entry a f key) (.entry b f key)

/-- Both succeed with results in some relation, or both fail for causes of one kind. -/
inductive PatchFault.Agree {α β : Type} (related : α → β → Prop) :
    Except PatchFault α → Except PatchFault β → Prop
  | ok {a : α} {b : β} (h : related a b) : Agree related (.ok a) (.ok b)
  | error {e e' : PatchFault} (h : e.SameKind e') : Agree related (.error e) (.error e')

open PatchFault

/-! ### Reading and judging -/

namespace PatchTarget

/-- **What a path names inside a node** does not depend on how it names the node. -/
theorem agree_ofNodePath (path path' : PatchPath) (a b : NodeSelector) (rest : PatchPath) :
    Agree (SameInside a b) (ofNodePath path a rest) (ofNodePath path' b rest) := by
  unfold ofNodePath
  split
  case h_1 => exact .ok .node
  case h_2 name =>
    cases NodeField.ofName? name with
    | some f => exact .ok (.field f)
    | none =>
      simp only
      split
      · exact .error (.immutable _ _)
      · exact .error (.unknownPath _ _)
  case h_3 name last =>
    cases MapField.ofName? name with
    | some f => exact .ok (.entry f last.text)
    | none => exact .error (.unknownPath _ _)
  case h_4 => exact .error (.unknownPath _ _)

end PatchTarget

namespace PatchOp

variable {p : Project} {op op' : PatchOp} {ops ops' : List PatchOp} {i : Nat} {s : String}
  {n : Node}

/-- A value that does not decode is refused for one reason under both paths. -/
theorem agree_mapError {α : Type} (r : Except Mismatch α) (path path' : String) :
    Agree Eq (r.mapError fun m ↦ .invalidValue path m.message)
      (r.mapError fun m ↦ .invalidValue path' m.message) := by
  cases r with
  | ok a => exact .ok rfl
  | error m => exact .error (.invalidValue _ _ _)

/-- **Two names of one node** lead to one verdict. -/
theorem agree_verdict_of_picks {a b : Segment}
    (ha : (NodeSelector.ofSegment a).Picks p.workflow.nodes i n)
    (hb : (NodeSelector.ofSegment b).Picks p.workflow.nodes i n) (rest : PatchPath) (value : Json) :
    Agree Eq (verdict p.identities ⟨.key "workflow" :: .key "nodes" :: a :: rest, value⟩)
      (verdict p.identities ⟨.key "workflow" :: .key "nodes" :: b :: rest, value⟩) := by
  -- both paths lead to the same place inside a node, or both are refused
  have htarget := PatchTarget.agree_ofNodePath (.key "workflow" :: .key "nodes" :: a :: rest)
    (.key "workflow" :: .key "nodes" :: b :: rest) (.ofSegment a) (.ofSegment b) rest
  simp only [verdict, PatchTarget.ofPath]
  generalize PatchTarget.ofNodePath _ (.ofSegment a) rest = r at htarget ⊢
  generalize PatchTarget.ofNodePath _ (.ofSegment b) rest = r' at htarget ⊢
  cases htarget with
  | error h => exact .error h
  | ok hinside =>
    cases hinside with
    | node =>
      cases Node.decode (Tree.ofJson value) with
      | error m => exact .error (.invalidValue _ _ _)
      | ok n' =>
        simp only [NodeSelector.seek_of_picks ha, NodeSelector.seek_of_picks hb]
        split
        · exact .ok rfl
        · exact .error (.immutable _ _)
    | field f =>
      simp only [NodeSelector.seek_of_picks ha, NodeSelector.seek_of_picks hb]
      exact agree_mapError _ _ _
    | entry f key =>
      simp only [NodeSelector.seek_of_picks ha, NodeSelector.seek_of_picks hb]
      exact agree_mapError _ _ _

/-- The verdict on a respelled operation is the verdict on the operation, up to the text of its
fault. -/
theorem agree_verdict (hfirst : (NodeSelector.id s).Picks p.workflow.nodes i n)
    (h : op.Respelled i s op') :
    Agree Eq (op.verdict p.identities) (op'.verdict p.identities) := by
  -- Any index is the name of its node, but an id is only that of the first node that has it.
  have hindex : (NodeSelector.index i).Picks p.workflow.nodes i n := by
    cases hfirst with
    | id hn _ _ => exact .index hn
  obtain ⟨key, value⟩ := op
  obtain ⟨key', value'⟩ := op'
  obtain ⟨hkey, rfl⟩ := h
  cases hkey with
  | same =>
    cases verdict p.identities ⟨key, value⟩ with
    | ok e => exact .ok rfl
    | error e => exact .error (.refl e)
  | byId rest => exact agree_verdict_of_picks (a := .index i) (b := .key s) hindex hfirst rest value
  | byIndex rest =>
    exact agree_verdict_of_picks (a := .key s) (b := .index i) hfirst hindex rest value

/-! ### Lists of patches -/

/-- The cause for which the patch at a place of a list is rejected, if it is. -/
def faultAt? (p : Project) (ops : List PatchOp) (j : Nat) : Option PatchFault :=
  ops[j]?.bind fun op ↦ op.fault? (performAll p (ops.take j)).1

/-- The places of a list at which a patch is rejected. -/
def rejectedAt (p : Project) (ops : List PatchOp) : List Nat :=
  (List.range ops.length).filter fun j ↦ (faultAt? p ops j).isSome

/-- Operations on which the verdicts agree act alike. -/
theorem act_of_agree (h : Agree Eq (op.verdict p.identities) (op'.verdict p.identities)) :
    op.act p.identities = op'.act p.identities := by
  funext q
  unfold act
  generalize op.verdict p.identities = r at h
  generalize op'.verdict p.identities = r' at h
  cases h with
  | ok heq => rw [heq]
  | error => rfl

/-- Operations on which the verdicts agree are rejected together, with faults of one kind. -/
theorem fault?_of_agree (h : Agree Eq (op.verdict p.identities) (op'.verdict p.identities)) :
    Option.Rel SameKind (op.fault? p) (op'.fault? p) := by
  rw [fault?_eq, fault?_eq]
  generalize op.verdict p.identities = r at h
  generalize op'.verdict p.identities = r' at h
  cases h with
  | ok => exact .none
  | error hkind => exact .some hkind

theorem isSome_of_rel {α β : Type} {related : α → β → Prop} {a? : Option α} {b? : Option β}
    (h : Option.Rel related a? b?) : a?.isSome = b?.isSome := by
  cases h <;> rfl

/-- **Patch by patch** the causes are of one kind, if the verdicts agree. -/
theorem faultAt?_of_agree (h : List.Forall₂ (fun op op' ↦ Agree Eq (verdict p.identities op)
      (verdict p.identities op')) ops ops') (j : Nat) :
    Option.Rel SameKind (faultAt? p ops j) (faultAt? p ops' j) := by
  -- The project at a place of the list is gone from the cause, so the induction is on the lists
  -- alone.
  simp only [faultAt?, fault?_performAll]
  induction h generalizing j with
  | nil => exact .none
  | cons hhead _ ih =>
    cases j with
    | zero => exact fault?_of_agree hhead
    | succ j => exact ih j

/-- **A node may be named by its index or by its id.** Patches whose paths do it differently come to
the same project, and are rejected at the same places and for causes of the same kind. -/
theorem selectors_agree (hfirst : (NodeSelector.id s).Picks p.workflow.nodes i n)
    (hops : List.Forall₂ (Respelled i s) ops ops') :
    (performAll p ops).1 = (performAll p ops').1 ∧ rejectedAt p ops = rejectedAt p ops' ∧
      (∀ j, Option.Rel SameKind (faultAt? p ops j) (faultAt? p ops' j)) ∧
      List.Forall₂ SameKind (performAll p ops).2 (performAll p ops').2 := by
  have hverdicts := hops.imp fun _ _ h ↦ agree_verdict hfirst h
  have hfaults := faultAt?_of_agree hverdicts
  refine ⟨?_, ?_, hfaults, ?_⟩
  · rw [performAll_eq_act, performAll_eq_act]
    refine List.rel_foldl (P := Eq) ?_ rfl hverdicts
    rintro q _ rfl op op' h
    exact congrFun (act_of_agree h) q
  · rw [rejectedAt, rejectedAt, hops.length_eq]
    exact List.filter_congr fun j _ ↦ isSome_of_rel (hfaults j)
  · rw [faults_eq_filterMap, faults_eq_filterMap]
    exact List.rel_filterMap (fun _ _ h ↦ fault?_of_agree h) hverdicts

/-- Two nodes with digits for ids: the node `0` is not the one with index `0`. -/
def crossed : Project :=
  let n (id : String) : Node := ⟨id, .constInt, ⟨⟨0⟩, ⟨0⟩⟩, ∅, none, none, none, none⟩
  { lone with workflow := ⟨[n "1", n "0"], [], none⟩ }

/-- The node `0` is named in two ways in turn: it is replaced, refuses a run time, gets an output
and has no field of that name. -/
def crossedOps (a b : Segment) : List PatchOp :=
  let replacement : Node := ⟨"0", .constInt, ⟨⟨0⟩, ⟨0⟩⟩, ∅, none, none, some ∅,
    some (.execution ["boom"])⟩
  [⟨[.key "workflow", .key "nodes", a], replacement.encode⟩,
    ⟨[.key "workflow", .key "nodes", b, .key "runtime"], .str "slow"⟩,
    ⟨[.key "workflow", .key "nodes", a, .key "data_out", .key "out"], .str "d"⟩,
    ⟨[.key "workflow", .key "nodes", b, .key "colour"], .null⟩]

theorem selectors_agree_crossed :
    let ops := crossedOps (.index 1) (.key "0")
    let ops' := crossedOps (.key "0") (.index 1)
    (∃ n, (NodeSelector.id "0").Picks crossed.workflow.nodes 1 n) ∧
      List.Forall₂ (Respelled 1 "0") ops ops' ∧
      rejectedAt crossed ops = [1, 3] ∧ (performAll crossed ops).1 = (performAll crossed ops').1 ∧
      rejectedAt crossed ops = rejectedAt crossed ops' ∧
      List.Forall₂ SameKind (performAll crossed ops).2 (performAll crossed ops').2 := by
  obtain ⟨n, hn, hid⟩ : ∃ n, crossed.workflow.nodes[1]? = some n ∧ n.id = "0" := ⟨_, rfl, rfl⟩
  have hfirst : (NodeSelector.id "0").Picks crossed.workflow.nodes 1 n :=
    .id hn hid (List.forall_mem_singleton.2 (by decide))
  have hops : List.Forall₂ (Respelled 1 "0") (crossedOps (.index 1) (.key "0"))
      (crossedOps (.key "0") (.index 1)) :=
    .cons ⟨.byId _, rfl⟩ (.cons ⟨.byIndex _, rfl⟩
      (.cons ⟨.byId _, rfl⟩ (.cons ⟨.byIndex _, rfl⟩ .nil)))
  obtain ⟨hproject, hplaces, -, hcauses⟩ := selectors_agree hfirst hops
  exact ⟨⟨n, hfirst⟩, hops, rfl, hproject, hplaces, hcauses⟩

end PatchOp

end GraphSession
