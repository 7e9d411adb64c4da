import Mathlib.Data.List.Basic
import GraphSession.Patch.InPlace

/-!
# A rejected patch leaves no trace

The steps of a patch in place could leave a write behind when a later one fails. They do not, and
the reason is the order of the steps: what can fail comes before the first write. So the steps on a
node do what an edit of the node does (`InPlace.Carries`), all of it or nothing, and a patch in
place comes to what a patch of a value comes to (`PatchOp.run_perform`, and for many
`PatchOp.performAll_eq_applyAll`).

**Many patches.** A patch that is rejected may then be skipped: the project is the fold of the
single patches with a rejected one as the identity, and the causes are those of the rejected ones,
each at the project that the patches before it have left (`PatchOp.rejected_leaves_no_trace`).
-/

namespace GraphSession

/-- The project with another node at a place. -/
def Project.setNode (p : Project) (i : Nat) (n : Node) : Project :=
  { p with workflow := { p.workflow with nodes := p.workflow.nodes.set i n } }

namespace InPlace

variable {α : Type} {p : Project} {i : Nat} {n : Node} {path : String} {value : Json}
  {sel : NodeSelector}

/-- What comes of steps that change a project all at once or not at all. -/
def outcome (p : Project) : Except PatchFault Project → EStateM.Result PatchFault Project Unit
  | .ok p' => .ok () p'
  | .error e => .error e p

/-- Steps on the node at a place do to the project what an edit of the node does. -/
def Carries (x : InPlace Unit) (i : Nat) (edit : Node → Except PatchFault Node) : Prop :=
  ∀ (p : Project) (n : Node), p.workflow.nodes[i]? = some n →
    x.run p = outcome p ((edit n).map fun n' ↦ p.setNode i n')

/-- Changing a node in place stores the changed node. -/
theorem run_change (h : p.workflow.nodes[i]? = some n) (f : Node → Node) :
    (change i f).run p = .ok () (p.setNode i (f n)) := by
  obtain ⟨hi, rfl⟩ := List.getElem?_eq_some_iff.1 h
  have hnodes : p.workflow.nodes.modify i f = p.workflow.nodes.set i (f p.workflow.nodes[i]) :=
    List.modify_eq_set_get f hi
  rw [Project.setNode, ← hnodes]
  rfl

theorem carries_change (f : Node → Node) : Carries (change i f) i fun n ↦ .ok (f n) :=
  fun _ _ h ↦ run_change h f

/-- A decoded value is handed on, and a mismatch stops the write before anything is stored. -/
theorem run_decode_bind (f : Decoder α) (g : α → InPlace Unit) :
    (decode f value path >>= g).run p =
      match f (Tree.ofJson value) with
      | .ok a => (g a).run p
      | .error m => .error (.invalidValue path m.message) p := by
  cases h : f (Tree.ofJson value) with
  | ok a => simp only [decode, h]; rfl
  | error m => simp only [decode, h]; rfl

/-- Nothing is written before a value is decoded. -/
theorem carries_decode (f : Decoder α) {g : α → InPlace Unit} {edit : α → Node → Node}
    (h : ∀ a, Carries (g a) i fun n ↦ .ok (edit a n)) :
    Carries (decode f value path >>= g) i fun n ↦
      ((f (Tree.ofJson value)).map fun a ↦ edit a n).mapError fun m ↦
        .invalidValue path m.message := by
  intro p n hn
  rw [run_decode_bind]
  cases f (Tree.ofJson value) with
  | error m => rfl
  | ok a => exact h a p n hn

/-- A second write comes on top of the first. -/
theorem carries_seq {x y : InPlace Unit} {f g : Node → Node} (hx : Carries x i fun n ↦ .ok (f n))
    (hy : Carries y i fun n ↦ .ok (g n)) : Carries (x >>= fun _ ↦ y) i fun n ↦ .ok (g (f n)) := by
  intro p n hn
  have hset : (p.setNode i (f n)).workflow.nodes[i]? = some (f n) := by
    rw [Project.setNode]
    exact List.getElem?_set_self (List.getElem?_eq_some_iff.1 hn).1
  have hfirst : x.run p = .ok () (p.setNode i (f n)) := hx p n hn
  have hsecond : y.run (p.setNode i (f n)) = .ok () ((p.setNode i (f n)).setNode i (g (f n))) :=
    hy _ _ hset
  have htwice : (p.setNode i (f n)).setNode i (g (f n)) = p.setNode i (g (f n)) := by
    simp [Project.setNode]
  rw [htwice] at hsecond
  simp only [EStateM.run_bind, hfirst, hsecond]
  rfl

/-- Assigning a field in place agrees with the assignment on the node: it succeeds or fails alike.
-/
theorem carries_setField (f : NodeField) (i : Nat) (value : Json) (path : String) :
    Carries (setField f i value path) i fun n ↦
      (f.set value n).mapError fun m ↦ .invalidValue path m.message := by
  cases f <;> exact carries_decode _ fun a ↦ carries_change _

/-- Assigning an entry in place agrees with the assignment on the node. -/
theorem carries_setEntry (f : MapField) (i : Nat) (key : String) (value : Json) (path : String) :
    Carries (setEntry f i key value path) i fun n ↦
      (f.setEntry key value n).mapError fun m ↦ .invalidValue path m.message := by
  cases f with
  | param =>
    simp only [setEntry, MapField.setEntry]
    split <;> exact carries_change _
  | schemaOut =>
    simp only [setEntry, MapField.setEntry]
    split
    · exact carries_change _
    · exact carries_seq (carries_change _) (carries_change _)
  -- The handle is decoded before the empty map is written.
  | dataOut =>
    simp only [setEntry, MapField.setEntry]
    split
    · exact carries_change _
    · exact carries_decode _ fun h ↦ carries_seq (carries_change _) (carries_change _)

/-- A selector that finds no node fails without touching the project. -/
theorem run_find_of_none (h : sel.position? p.workflow.nodes = none) :
    (find sel).run p = .error (.nodeNotFound sel.text) p := by
  simp only [find, EStateM.run_bind, EStateM.run_get, h]
  rfl

/-- A selector that finds a node gives it with its position. -/
theorem run_find_of_some (h : sel.position? p.workflow.nodes = some i) :
    (find sel).run p = match p.workflow.nodes[i]? with
      | none => .error (.nodeNotFound sel.text) p
      | some n => .ok (i, n) p := by
  simp only [find, EStateM.run_bind, EStateM.run_get, h]
  cases p.workflow.nodes[i]? <;> rfl

/-- The node is found before anything is written. -/
theorem run_find_bind {g : Nat × Node → InPlace Unit} {edit : Node → Except PatchFault Node}
    (h : ∀ i n, p.workflow.nodes[i]? = some n →
      (g (i, n)).run p = outcome p ((edit n).map fun n' ↦ p.setNode i n')) :
    (find sel >>= g).run p = outcome p (p.editNode sel edit) := by
  rw [EStateM.run_bind, Project.editNode]
  cases hi : sel.position? p.workflow.nodes with
  | none =>
    rw [run_find_of_none hi]
    rfl
  | some i =>
    rw [run_find_of_some hi]
    cases hn : p.workflow.nodes[i]? with
    | none => simp only [hn]; rfl
    | some n =>
      simp only [hn]
      exact h i n hn

end InPlace

namespace PatchOp

open InPlace

/-- **A patch is carried out as a whole or not at all.** -/
theorem run_perform (op : PatchOp) (p : Project) : op.perform.run p = outcome p (apply p op) := by
  rw [perform, apply]
  cases PatchTarget.ofPath op.key with
  | error e => rfl
  | ok target =>
    cases target with
    | workflowError =>
      simp only [write, run_decode_bind]
      cases Tree.optional Tree.string (Tree.ofJson op.value) <;> rfl
    | node sel =>
      simp only [write, run_decode_bind]
      cases Node.decode (Tree.ofJson op.value) with
      | error m => rfl
      -- The identities are compared when the node is found and nothing is written yet.
      | ok n' =>
        refine run_find_bind fun i n hn ↦ ?_
        dsimp only
        split
        · exact carries_change _ p n hn
        · rfl
    | field sel f =>
      exact run_find_bind fun i n hn ↦ carries_setField f i op.value op.key.text p n hn
    | entry sel f key =>
      exact run_find_bind fun i n hn ↦ carries_setEntry f i key op.value op.key.text p n hn

/-- The project that a patch leaves, which is the same one if the patch is rejected. -/
def settle (p : Project) (op : PatchOp) : Project :=
  match op.perform.run p with
  | .ok _ p' => p'
  | .error _ _ => p

/-- The cause of a rejection, if a patch is rejected. -/
def fault? (p : Project) (op : PatchOp) : Option PatchFault :=
  match op.perform.run p with
  | .ok _ _ => none
  | .error e _ => some e

/-- The causes of all rejections in the order of the patches. -/
def faults (p : Project) (ops : List PatchOp) : List PatchFault :=
  (List.range ops.length).filterMap fun i ↦ ops[i]?.bind fun op ↦
    op.fault? ((ops.take i).foldl settle p)

/-- A failing operation leaves the project it began with. -/
theorem eq_of_run_perform {op : PatchOp} {p p' : Project} {e : PatchFault}
    (h : op.perform.run p = .error e p') : p' = p := by
  rw [run_perform] at h
  cases hop : apply p op with
  | ok q =>
    rw [hop] at h
    cases h
  | error e' =>
    rw [hop] at h
    cases h
    rfl

theorem faults_cons (p : Project) (op : PatchOp) (rest : List PatchOp) :
    faults p (op :: rest) = (op.fault? p).toList ++ faults (settle p op) rest := by
  rw [faults, List.length_cons, List.range_succ_eq_map, List.filterMap_cons, List.filterMap_map,
    List.getElem?_cons_zero, Option.bind_some, List.take_zero, List.foldl_nil]
  cases op.fault? p <;> rfl

/-- The operations in place are the fold of their effects, with the faults in order. -/
theorem performAll_eq (p : Project) (ops : List PatchOp) :
    performAll p ops = (ops.foldl settle p, faults p ops) := by
  induction ops generalizing p with
  | nil => rfl
  | cons op rest ih =>
    rw [performAll, List.foldl_cons, faults_cons]
    cases h : op.perform.run p with
    | ok u p' => simp [settle, fault?, h, ih]
    | error e p' =>
      obtain rfl := eq_of_run_perform h
      simp [settle, fault?, h, ih]

/-- Patches in place come to what patches of a value come to. -/
theorem performAll_eq_applyAll (p : Project) (ops : List PatchOp) :
    performAll p ops = applyAll p ops := by
  induction ops generalizing p with
  | nil => rfl
  | cons op rest ih =>
    rw [performAll, applyAll, run_perform]
    cases apply p op <;> simp only [outcome, ih]

/-- **A rejected patch leaves the project as it was**, and among others it is skipped: what is left
is the fold of the patches with the rejected ones as the identity, and what is returned is their
causes. -/
theorem rejected_leaves_no_trace :
    (∀ (op : PatchOp) (p p' : Project) (e : PatchFault), op.perform.run p = .error e p' → p' = p) ∧
    ∀ (p : Project) (ops : List PatchOp), performAll p ops = (ops.foldl settle p, faults p ops) :=
  ⟨fun _ _ _ _ h ↦ eq_of_run_perform h, performAll_eq⟩

/-- A project with one node, which has no outputs. -/
def lone : Project :=
  let n : Node := ⟨"a", .constInt, ⟨⟨0⟩, ⟨0⟩⟩, ∅, none, none, none, none⟩
  { id := 1, name := "demo", owner := 7, updatedAt := default, thumbnail := none,
    workflow := ⟨[n], [], none⟩ }

/-- A number as the handle of an output. -/
def strayHandle : PatchOp :=
  ⟨[.key "workflow", .key "nodes", .key "a", .key "data_out", .key "out"], .int 5⟩

/-- Two operations on a node that is not there leave the project as it was. -/
theorem rejected_leaves_no_trace_handle :
    (∃ e p', strayHandle.perform.run lone = .error e p' ∧ p' = lone) ∧
      performAll lone [strayHandle, strayHandle] =
        ([strayHandle, strayHandle].foldl settle lone, faults lone [strayHandle, strayHandle]) :=
  ⟨⟨_, _, rfl, rejected_leaves_no_trace.1 strayHandle lone _ _ rfl⟩, rejected_leaves_no_trace.2 _ _⟩

end PatchOp

end GraphSession
