import GraphSession.Proofs.Patch.Fields

/-!
# What a patch changes

A patch that is accepted writes its value at one place and touches nothing else. Both halves are one
relation between the project before and after, `PatchTarget.Written`, with one case for each kind of
place. It does not speak of how the write is done: the node is the one that a selector picks, the
other nodes are compared place by place (`Project.ChangedAt`), the other fields of the node field by
field (`NodeField.Sets`) and the other entries of a map name by name (`MapField.SetsEntry`).

**Nothing is left open.** For a project and a value at most one project is related to them, so the
relation does not only hold of what is written, it is what is written
(`PatchOp.apply_eq_ok_iff_written`). A patch that no project is related to is rejected.
-/

namespace GraphSession

/-- A selector names the node at a place: the node with that index, or the first one with that
id. -/
inductive NodeSelector.Picks (nodes : List Node) : NodeSelector → Nat → Node → Prop
  | index {i : Nat} {n : Node} (h : nodes[i]? = some n) : Picks nodes (.index i) i n
  | id {s : String} {i : Nat} {n : Node} (h : nodes[i]? = some n) (hid : n.id = s)
      (hfirst : ∀ m ∈ nodes.take i, m.id ≠ s) : Picks nodes (.id s) i n

namespace NodeSelector

variable {nodes : List Node} {sel : NodeSelector} {i : Nat} {n : Node}

/-- An index selects the node at that position, when the list reaches so far. -/
theorem position?_index_eq_some_iff {k : Nat} :
    (NodeSelector.index k).position? nodes = some i ↔ k < nodes.length ∧ k = i := by
  rw [position?, Option.ite_none_right_eq_some, Option.some.injEq]

/-- An identifier selects the first node that bears it. -/
theorem position?_id_eq_some_iff {s : String} : (NodeSelector.id s).position? nodes = some i ↔
    (∃ n, nodes[i]? = some n ∧ n.id = s) ∧ ∀ m ∈ nodes.take i, m.id ≠ s := by
  simp only [position?, List.findIdx?_eq_some_iff_getElem, decide_eq_true_eq,
    List.getElem?_eq_some_iff, List.mem_take_iff_getElem]
  constructor
  · rintro ⟨hi, hid, hfirst⟩
    refine ⟨⟨_, ⟨hi, rfl⟩, hid⟩, ?_⟩
    rintro _ ⟨j, hj, rfl⟩
    exact hfirst j (Nat.lt_of_lt_of_le hj (Nat.min_le_left _ _))
  · rintro ⟨⟨_, ⟨hi, rfl⟩, hid⟩, hfirst⟩
    exact ⟨hi, hid, fun j hj ↦ hfirst _ ⟨j, Nat.lt_min.2 ⟨hj, Nat.lt_trans hj hi⟩, rfl⟩⟩

/-- A place that is found has a node. -/
theorem exists_of_position? (h : sel.position? nodes = some i) : ∃ n, nodes[i]? = some n := by
  cases sel with
  | index k =>
    obtain ⟨hi, rfl⟩ := position?_index_eq_some_iff.1 h
    exact ⟨_, List.getElem?_eq_getElem hi⟩
  | id s =>
    obtain ⟨⟨n, hn, -⟩, -⟩ := position?_id_eq_some_iff.1 h
    exact ⟨n, hn⟩

theorem picks_iff : sel.Picks nodes i n ↔ sel.position? nodes = some i ∧ nodes[i]? = some n := by
  cases sel with
  | index k =>
    rw [position?_index_eq_some_iff]
    constructor
    · rintro ⟨h⟩
      exact ⟨⟨(List.getElem?_eq_some_iff.1 h).1, rfl⟩, h⟩
    · rintro ⟨⟨-, rfl⟩, h⟩
      exact .index h
  | id s =>
    rw [position?_id_eq_some_iff]
    constructor
    · intro hpicks
      cases hpicks with
      | id h hid hfirst => exact ⟨⟨⟨n, h, hid⟩, hfirst⟩, h⟩
    · rintro ⟨⟨⟨m, hm, hid⟩, hfirst⟩, h⟩
      obtain rfl : m = n := Option.some.inj (hm.symm.trans h)
      exact .id h hid hfirst

end NodeSelector

namespace Project

variable {p p' : Project} {i : Nat} {n n' : Node} {sel : NodeSelector}

/-- A project with one node replaced, and nothing else. -/
structure ChangedAt (p : Project) (i : Nat) (n : Node) (p' : Project) : Prop where
  there : p'.workflow.nodes[i]? = some n
  elsewhere : ∀ j, j ≠ i → p'.workflow.nodes[j]? = p.workflow.nodes[j]?
  rest : p' = { p with workflow := { p.workflow with nodes := p'.workflow.nodes } }

/-- Being changed at one position alone is the replacement of the node there. -/
theorem changedAt_iff (h : p.workflow.nodes[i]? = some n) : p.ChangedAt i n' p' ↔
    p' = { p with workflow := { p.workflow with nodes := p.workflow.nodes.set i n' } } := by
  obtain ⟨hi, -⟩ := List.getElem?_eq_some_iff.1 h
  constructor
  · intro hchanged
    have hnodes : p'.workflow.nodes = p.workflow.nodes.set i n' := by
      refine List.ext_getElem? fun j ↦ ?_
      by_cases hj : j = i
      · rw [hj, hchanged.there, List.getElem?_set_self hi]
      · rw [hchanged.elsewhere j hj, List.getElem?_set_ne (Ne.symm hj)]
    rw [hchanged.rest, hnodes]
  · rintro rfl
    exact ⟨List.getElem?_set_self hi, fun j hj ↦ List.getElem?_set_ne (Ne.symm hj), rfl⟩

/-- A project in which the node that is selected was replaced by one in some relation to it, and
nothing else. -/
def Edited (p : Project) (sel : NodeSelector) (edits : Node → Node → Prop) (p' : Project) : Prop :=
  ∃ i n n', sel.Picks p.workflow.nodes i n ∧ edits n n' ∧ p.ChangedAt i n' p'

/-- **An edit that is accepted** changes the node that is selected, and nothing else. -/
theorem editNode_eq_ok_iff {edit : Node → Except PatchFault Node} :
    p.editNode sel edit = .ok p' ↔ p.Edited sel (fun n n' ↦ edit n = .ok n') p' := by
  simp only [editNode, Edited, NodeSelector.picks_iff]
  constructor
  · intro h
    split at h
    · cases h
    · rename_i i hi
      split at h
      · cases h
      · rename_i n hn
        cases hedit : edit n with
        | error e =>
          rw [hedit] at h
          cases h
        | ok n' =>
          rw [hedit] at h
          cases h
          exact ⟨i, n, n', ⟨hi, hn⟩, hedit, (changedAt_iff hn).2 rfl⟩
  · rintro ⟨i, n, n', ⟨hi, hn⟩, hedit, hchanged⟩
    rw [hi]
    simp only [hn, hedit]
    exact congrArg Except.ok ((changedAt_iff hn).1 hchanged).symm

end Project

/-- A value was written at a place, and everything else is as it was. -/
def PatchTarget.Written (value : Json) (p p' : Project) : PatchTarget → Prop
  | workflowError =>
    ∃ e, (value = .null ∧ e = none ∨ ∃ s, value = .str s ∧ e = some s) ∧
      p' = { p with workflow := { p.workflow with error := e } }
  | node sel =>
    p.Edited sel (fun n n' ↦ Node.decode (Tree.ofJson value) = .ok n' ∧ n'.identity = n.identity) p'
  | field sel f => p.Edited sel (f.Sets value) p'
  | entry sel f key => p.Edited sel (f.SetsEntry key value) p'

theorem Tree.optional_string_eq_ok_iff {value : Json} {e : Option String} :
    optional string (ofJson value) = .ok e ↔
      value = .null ∧ e = none ∨ ∃ s, value = .str s ∧ e = some s := by
  cases value <;> simp [optional, string, ofJson, Except.map, eq_comm]

/-- A node is replaced by one of the same identity only. -/
theorem Node.replacement_eq_ok_iff {r n n' : Node} {e : PatchFault} :
    (if r.id = n.id ∧ r.kind = n.kind then .ok r else .error e : Except PatchFault Node) = .ok n' ↔
      r = n' ∧ n'.identity = n.identity := by
  split
  · rename_i hsame
    rw [Except.ok.injEq]
    refine ⟨fun h ↦ ⟨h, ?_⟩, And.left⟩
    rw [← h]
    exact Prod.ext hsame.1 hsame.2
  · rename_i hother
    refine ⟨nofun, ?_⟩
    rintro ⟨rfl, hidentity⟩
    exact absurd (Prod.mk.inj hidentity) hother

namespace PatchOp

variable {p p' : Project} {value : Json}

/-- **One case for each kind of place.** -/
theorem write_eq_ok_iff {path : String} {target : PatchTarget} :
    write value path p target = .ok p' ↔ target.Written value p p' := by
  cases target with
  | workflowError =>
    simp only [write, PatchTarget.Written, ← Tree.optional_string_eq_ok_iff]
    cases Tree.optional Tree.string (Tree.ofJson value) with
    | error m => simp
    | ok e => simp [eq_comm]
  | node sel =>
    simp only [write, PatchTarget.Written]
    -- The value is decoded before the node is looked for, so it may fail without one.
    cases Node.decode (Tree.ofJson value) with
    | error m => simp [Project.Edited]
    | ok r =>
      simp only [Project.editNode_eq_ok_iff, Node.replacement_eq_ok_iff, Except.ok.injEq]
  | field sel f =>
    simp only [write, PatchTarget.Written, Project.editNode_eq_ok_iff, mapError_eq_ok_iff,
      NodeField.set_eq_ok_iff]
  | entry sel f key =>
    simp only [write, PatchTarget.Written, Project.editNode_eq_ok_iff, mapError_eq_ok_iff,
      MapField.setEntry_eq_ok_iff]

/-- **A patch is accepted with a project exactly if that one is the old one with its value written
at its place**, and nothing else changed. -/
theorem apply_eq_ok_iff_written {op : PatchOp} : apply p op = .ok p' ↔
    ∃ target, PatchTarget.ofPath op.key = .ok target ∧ target.Written op.value p p' := by
  rw [apply]
  cases PatchTarget.ofPath op.key with
  | error e => simp
  | ok target => simp [write_eq_ok_iff]

end PatchOp

end GraphSession
