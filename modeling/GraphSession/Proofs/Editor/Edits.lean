import Mathlib.Data.List.Nodup
import GraphSession.Editor.Graph

/-!
# What edits leave of a graph

The editor removes nodes, clears the fault of a node and clears the faults at the ends of an edge.
It may do so in any order, twice, or under ids that no node has any more. In a graph whose ids are
distinct and whose edges connect nodes of it (`EditorGraph.IsLinked`) none of this makes a
difference: what is left is what no edit removes, in its order, and a fault is gone exactly if some
edit clears it (`EditorGraph.edits_leave_rest`).

**Every edit is a pruning.** A removal takes one node out of a list and filters another one, and
clearing goes through look-ups. On a linked graph both are the same kind of thing:
`EditorGraph.prune` takes everything under some ids away at once. Prunings add up
(`EditorGraph.prune_prune`) and keep a graph linked, so a run of edits is one pruning by all the ids
that it names (`EditorGraph.foldl_perform`).

**Where a linked graph is needed.** With repeated ids a removal leaves the second node and yet takes
its edges away. An edge that leads nowhere stays as it is when the id that it leads to is removed.
-/

namespace GraphSession

/-! ### Lists with distinct keys -/

section Keyed

variable {α β : Type} {key : α → β} {l : List α} {k : β}

/-- A key does not occur again among the others. -/
theorem key_ne_of_nodup_cons {a b : α} (h : ((a :: l).map key).Nodup) (hb : b ∈ l) :
    key b ≠ key a :=
  fun hkey ↦ (List.nodup_cons.1 h).1 (hkey ▸ List.mem_map_of_mem hb)

variable [DecidableEq β]

/-- If no element has the key, nothing is modified. -/
theorem modifyFirst_of_forall_ne (h : ∀ a ∈ l, key a ≠ k) (f : α → α) :
    modifyFirst (fun a ↦ key a = k) f l = l := by
  induction l with
  | nil => rfl
  | cons a rest ih =>
    obtain ⟨ha, hrest⟩ := List.forall_mem_cons.1 h
    rw [modifyFirst, decide_eq_false ha, if_neg Bool.false_ne_true, ih hrest]

/-- The first element with a key is the only one. -/
theorem modifyFirst_eq_map (h : (l.map key).Nodup) (k : β) (f : α → α) :
    modifyFirst (fun a ↦ key a = k) f l = l.map fun a ↦ if key a = k then f a else a := by
  induction l with
  | nil => rfl
  | cons a rest ih =>
    rw [modifyFirst, List.map_cons, ← ih (List.nodup_cons.1 h).2]
    by_cases ha : key a = k
    · subst ha
      rw [modifyFirst_of_forall_ne fun b hb ↦ key_ne_of_nodup_cons h hb]
      simp
    · simp [ha]

/-- If keys do not repeat, erasing the first element of a key erases all of that key. -/
theorem eraseP_eq_filter (h : (l.map key).Nodup) (k : β) :
    l.eraseP (fun a ↦ key a = k) = l.filter fun a ↦ key a ≠ k := by
  induction l with
  | nil => rfl
  | cons a rest ih =>
    rw [List.eraseP_cons, List.filter_cons, ← ih (List.nodup_cons.1 h).2]
    by_cases ha : key a = k
    · subst ha
      have hrest : rest.eraseP (fun b ↦ key b = key a) = rest :=
        List.eraseP_of_forall_not fun b hb ↦ by simpa using key_ne_of_nodup_cons h hb
      simp [hrest]
    · simp [ha]

end Keyed

/-! ### Edits -/

/-- An edit that takes something out of a graph. -/
inductive GraphEdit where
  /-- Removes a node with its edges. -/
  | remove (id : String)
  /-- Clears the fault of a node. -/
  | clear (id : String)
  /-- Clears the faults at both ends of an edge, whether the graph has the edge or not. -/
  | clearTouching (e : EditorEdge)

namespace GraphEdit

/-- What an edit makes of a graph. -/
def perform (g : EditorGraph) : GraphEdit → EditorGraph
  | remove id => g.removeNode id
  | clear id => g.clearFault id
  | clearTouching e => g.clearFaultsTouching e

/-- The ids that the edit removes. -/
def removed : GraphEdit → List String
  | remove id => [id]
  | clear _ | clearTouching _ => []

/-- The ids that the edit clears: the one that it names, or those of the ends of its edge. -/
def cleared : GraphEdit → List String
  | remove _ => []
  | clear id => [id]
  | clearTouching e => [e.source, e.target]

end GraphEdit

namespace EditorNode

/-- A node as it is, but without a fault. -/
def withoutFault (n : EditorNode) : EditorNode := { n with data := { n.data with fault := none } }

/-- The node without its fault if its id is one of those, else the node. -/
def clearedBy (ids : List String) (n : EditorNode) : EditorNode :=
  if n.id ∈ ids then n.withoutFault else n

/-- Clearing changes no id. -/
@[simp]
theorem id_clearedBy (ids : List String) (n : EditorNode) : (n.clearedBy ids).id = n.id := by
  rw [clearedBy]
  split <;> rfl

/-- Clearing twice clears what either clears. -/
theorem clearedBy_clearedBy (ids ids' : List String) (n : EditorNode) :
    (n.clearedBy ids).clearedBy ids' = n.clearedBy (ids ++ ids') := by
  rw [clearedBy, id_clearedBy]
  by_cases h : n.id ∈ ids <;> by_cases h' : n.id ∈ ids' <;> simp [clearedBy, h, h', withoutFault]

/-- Clearing the faults of absent nodes changes nothing. -/
theorem map_clearedBy_eq_self {ids : List String} {nodes : List EditorNode}
    (h : ∀ n ∈ nodes, n.id ∉ ids) :
    nodes.map (clearedBy ids) = nodes :=
  (List.map_congr_left fun n hn ↦ if_neg (h n hn)).trans (List.map_id' nodes)

end EditorNode

namespace EditorGraph

variable {g : EditorGraph} {id : String}

/-- The ids of the nodes, in order. -/
def ids (g : EditorGraph) : List String := g.nodes.map EditorNode.id

/-- No id repeats, and every edge connects nodes that are there. -/
structure IsLinked (g : EditorGraph) : Prop where
  distinct : g.ids.Nodup
  connected : ∀ e ∈ g.edges, e.source ∈ g.ids ∧ e.target ∈ g.ids

/-! ### Prunings -/

/-- The graph without everything under some ids: the nodes, the edges that touch them, and the
faults under other ids. -/
def prune (g : EditorGraph) (removed cleared : List String) : EditorGraph :=
  { g with
    nodes := (g.nodes.filter fun n ↦ n.id ∉ removed).map (EditorNode.clearedBy cleared)
    edges := g.edges.filter fun e ↦ e.source ∉ removed ∧ e.target ∉ removed }

/-- **Prunings add up.** -/
theorem prune_prune (g : EditorGraph) (removed cleared removed' cleared' : List String) :
    (g.prune removed cleared).prune removed' cleared' =
      g.prune (removed ++ removed') (cleared ++ cleared') := by
  simp only [prune, List.filter_map, List.map_map, List.filter_filter, EditorGraph.mk.injEq,
    and_true]
  refine ⟨?nodes, ?edges⟩
  case nodes =>
    congr 1
    · exact funext fun n ↦ n.clearedBy_clearedBy cleared cleared'
    · exact List.filter_congr fun n _ ↦ by simp [Bool.and_comm]
  case edges => exact List.filter_congr fun e _ ↦ by grind

/-- What is left of the ids are those that are not removed. -/
theorem ids_prune (g : EditorGraph) (removed cleared : List String) :
    (g.prune removed cleared).ids = g.ids.filter fun id ↦ id ∉ removed := by
  have hkept : EditorNode.id ∘ EditorNode.clearedBy cleared = EditorNode.id :=
    funext fun n ↦ n.id_clearedBy cleared
  rw [ids, ids, prune, List.map_map, hkept, List.filter_map]
  rfl

/-- Pruning keeps a graph linked, as every edge goes that has lost an end. -/
theorem IsLinked.prune (hg : g.IsLinked) (removed cleared : List String) :
    (g.prune removed cleared).IsLinked := by
  constructor
  case distinct =>
    rw [ids_prune]
    exact hg.distinct.filter _
  case connected =>
    intro e he
    obtain ⟨he, hends⟩ := List.mem_filter.1 he
    obtain ⟨hsource, htarget⟩ := of_decide_eq_true hends
    obtain ⟨hs, ht⟩ := hg.connected e he
    rw [ids_prune]
    exact ⟨List.mem_filter.2 ⟨hs, decide_eq_true hsource⟩,
      List.mem_filter.2 ⟨ht, decide_eq_true htarget⟩⟩

/-- Ids that no node has are not missed. -/
theorem prune_eq_self (hg : g.IsLinked) {removed cleared : List String}
    (hremoved : ∀ id ∈ removed, id ∉ g.ids) (hcleared : ∀ id ∈ cleared, id ∉ g.ids) :
    g.prune removed cleared = g := by
  have hkept : (g.nodes.filter fun n ↦ n.id ∉ removed) = g.nodes :=
    List.filter_eq_self.2 fun n hn ↦ decide_eq_true fun hid ↦
      hremoved n.id hid (List.mem_map_of_mem hn)
  have hsame : g.nodes.map (EditorNode.clearedBy cleared) = g.nodes :=
    EditorNode.map_clearedBy_eq_self fun n hn hid ↦ hcleared n.id hid (List.mem_map_of_mem hn)
  have hedges : (g.edges.filter fun e ↦ e.source ∉ removed ∧ e.target ∉ removed) = g.edges :=
    List.filter_eq_self.2 fun e he ↦ decide_eq_true
      ⟨fun hs ↦ hremoved _ hs (hg.connected e he).1, fun ht ↦ hremoved _ ht (hg.connected e he).2⟩
  rw [prune, hkept, hsame, hedges]

/-- Look-ups in a pruned graph. The graph need not be linked: nodes under one id are pruned
alike. -/
theorem node?_prune (g : EditorGraph) (removed cleared : List String) (id : String) :
    (g.prune removed cleared).node? id =
      if id ∈ removed then none else (g.node? id).map (EditorNode.clearedBy cleared) := by
  have hsame : (fun n : EditorNode ↦ decide (n.id = id)) ∘ EditorNode.clearedBy cleared =
      fun n ↦ decide (n.id = id) := funext fun n ↦ by simp
  rw [node?, prune, List.find?_map, List.find?_filter, hsame]
  split
  case isTrue h => rw [List.find?_eq_none.2 fun n _ ↦ by grind, Option.map_none]
  case isFalse h =>
    congr 2
    exact funext fun n ↦ by grind

/-! ### Each edit is a pruning -/

theorem node?_eq_none_iff : g.node? id = none ↔ id ∉ g.ids := by
  simp [node?, ids]

/-- Removing an absent node changes nothing. -/
theorem removeNode_of_not_mem (h : id ∉ g.ids) : g.removeNode id = g := by
  rw [removeNode, node?_eq_none_iff.2 h]

/-- Clearing the fault of an absent node changes nothing. -/
theorem clearFault_of_not_mem (h : id ∉ g.ids) : g.clearFault id = g := by
  have hnodes := modifyFirst_of_forall_ne (k := id) (fun n hn hid ↦
    h (hid ▸ List.mem_map_of_mem hn))
    EditorNode.withoutFault
  exact congrArg (EditorGraph.mk · g.edges g.error) hnodes

/-- Removing a node is a pruning. -/
theorem removeNode_eq_prune (hg : g.IsLinked) (id : String) :
    g.removeNode id = g.prune [id] [] := by
  cases hid : g.node? id with
  | none =>
    -- Without a node to remove the edges stay, and in a linked graph none of them touches the id.
    have hmem := node?_eq_none_iff.1 hid
    rw [removeNode_of_not_mem hmem, prune_eq_self hg (by simpa using hmem) (List.forall_mem_nil _)]
  | some n =>
    have hnodes : (g.nodes.eraseP fun n ↦ n.id = id) =
        (g.nodes.filter fun n ↦ n.id ∉ [id]).map (EditorNode.clearedBy []) := by
      rw [eraseP_eq_filter hg.distinct, EditorNode.map_clearedBy_eq_self fun _ _ ↦ List.not_mem_nil]
      exact List.filter_congr fun n _ ↦ by simp
    have hedges : (g.edges.filter fun e ↦ !e.touches id) =
        g.edges.filter fun e ↦ e.source ∉ [id] ∧ e.target ∉ [id] :=
      List.filter_congr fun e _ ↦ by simp [EditorEdge.touches]
    rw [removeNode, hid, prune, ← hnodes, ← hedges]

/-- Clearing a fault is a pruning. -/
theorem clearFault_eq_prune (hg : g.IsLinked) (id : String) :
    g.clearFault id = g.prune [] [id] := by
  have hnodes : modifyFirst (fun n ↦ n.id = id) EditorNode.withoutFault g.nodes =
      g.nodes.map (EditorNode.clearedBy [id]) := by
    rw [modifyFirst_eq_map hg.distinct]
    exact List.map_congr_left fun n _ ↦ by simp [EditorNode.clearedBy]
  have hall : g.prune [] [id] = { g with nodes := g.nodes.map (EditorNode.clearedBy [id]) } := by
    simp [prune]
  rw [hall, ← hnodes]
  rfl

/-- **An edit is a pruning** by the ids that it names. -/
theorem perform_eq_prune (hg : g.IsLinked) (edit : GraphEdit) :
    edit.perform g = g.prune edit.removed edit.cleared := by
  cases edit with
  | remove id => exact removeNode_eq_prune hg id
  | clear id => exact clearFault_eq_prune hg id
  | clearTouching e =>
    calc g.clearFaultsTouching e
      _ = (g.prune [] [e.source]).clearFault e.target := by
        rw [clearFaultsTouching, clearFault_eq_prune hg]
      _ = (g.prune [] [e.source]).prune [] [e.target] := clearFault_eq_prune (hg.prune _ _) _
      _ = g.prune [] [e.source, e.target] := prune_prune g _ _ _ _

/-- Every edit keeps a graph linked. -/
theorem IsLinked.perform (hg : g.IsLinked) (edit : GraphEdit) : (edit.perform g).IsLinked :=
  perform_eq_prune hg edit ▸ hg.prune _ _

/-! ### Runs of edits -/

/-- **So is a run of edits.** -/
theorem foldl_perform (hg : g.IsLinked) (edits : List GraphEdit) :
    edits.foldl GraphEdit.perform g =
      g.prune (edits.flatMap GraphEdit.removed) (edits.flatMap GraphEdit.cleared) := by
  induction edits generalizing g with
  | nil => exact (prune_eq_self hg (List.forall_mem_nil _) (List.forall_mem_nil _)).symm
  | cons edit rest ih =>
    -- The first edit leaves a linked graph, so the others are one pruning of what it leaves.
    rw [List.foldl_cons, ih (hg.perform edit), perform_eq_prune hg, prune_prune]
    rfl

/-! ### What is left -/

/-- What an id without a node is to a graph: an edit that names it is answered with nothing and
changes nothing, and as an end of an edge it does not count. -/
structure Ignores (g : EditorGraph) (id : String) : Prop where
  node : g.node? id = none
  fault : g.faultAt? id = none
  remove : g.removeNode id = g
  clear : g.clearFault id = g
  source : ∀ e : EditorEdge, e.source = id → g.clearFaultsTouching e = g.clearFault e.target
  target : ∀ e : EditorEdge, e.target = id → g.clearFaultsTouching e = g.clearFault e.source

/-- To a linked graph an absent id makes no difference at all. -/
theorem IsLinked.ignores (hg : g.IsLinked) (h : id ∉ g.ids) : g.Ignores id := by
  have hnode : g.node? id = none := node?_eq_none_iff.2 h
  refine ⟨hnode, ?fault, removeNode_of_not_mem h, clearFault_of_not_mem h, ?source, ?target⟩
  case fault => rw [faultAt?, hnode, Option.bind_none]
  case source =>
    rintro e rfl
    rw [clearFaultsTouching, clearFault_of_not_mem h]
  case target =>
    rintro e rfl
    have hids : (g.clearFault e.source).ids = g.ids := by
      rw [clearFault_eq_prune hg, ids_prune]
      exact List.filter_eq_self.2 fun _ _ ↦ decide_eq_true List.not_mem_nil
    rw [clearFaultsTouching, clearFault_of_not_mem (hids ▸ h)]

/-- What edits have left of a graph. -/
structure Remains (g : EditorGraph) (edits : List GraphEdit) (rest : EditorGraph) : Prop where
  linked : rest.IsLinked
  /-- The nodes under ids that no edit removes, in their order. They are as they were, but for the
  faults of those whose ids some edit clears. -/
  nodes : rest.nodes = (g.nodes.filter fun n ↦ n.id ∉ edits.flatMap GraphEdit.removed).map
    (EditorNode.clearedBy (edits.flatMap GraphEdit.cleared))
  /-- The edges between such nodes, in their order, as they were. -/
  edges : rest.edges = g.edges.filter fun e ↦
    e.source ∉ edits.flatMap GraphEdit.removed ∧ e.target ∉ edits.flatMap GraphEdit.removed
  error : rest.error = g.error
  /-- A look-up finds what there was under the id, unless it is removed. A removal is answered with
  what a look-up finds, and a clearing with the fault of it. -/
  found : ∀ id, rest.node? id =
    if id ∈ edits.flatMap GraphEdit.removed then none
    else (g.node? id).map (EditorNode.clearedBy (edits.flatMap GraphEdit.cleared))
  unknown : ∀ id, id ∉ rest.ids → rest.Ignores id

/-- **Edits leave the rest.** Whatever edits a linked graph goes through, under whatever ids and
edges, it stays linked. It loses the nodes and edges under the ids that are removed and the faults
under the ids that are cleared, and nothing else. -/
theorem edits_leave_rest (hg : g.IsLinked) (edits : List GraphEdit) :
    g.Remains edits (edits.foldl GraphEdit.perform g) := by
  rw [foldl_perform hg]
  have hlinked := hg.prune (edits.flatMap GraphEdit.removed) (edits.flatMap GraphEdit.cleared)
  exact ⟨hlinked, rfl, rfl, rfl, node?_prune g _ _, fun _ ↦ hlinked.ignores⟩

/-- A node that shows a fault. -/
def faulty (id : String) : EditorNode :=
  ⟨id, .plotBar, ⟨⟨0⟩, ⟨0⟩⟩, { NodeData.empty with fault := some (.execution [id]) }⟩

/-- Three nodes with parallel edges, a cycle, and edges from a node to itself. -/
def tangled : EditorGraph :=
  let edge (id source target : String) : EditorEdge := ⟨id, source, "out", target, "in"⟩
  ⟨[faulty "a", faulty "b", faulty "c"],
    [edge "1" "a" "b", edge "2" "b" "b", edge "3" "a" "b", edge "4" "a" "a", edge "5" "b" "c",
      edge "6" "c" "a"],
    some "late"⟩

/-- Edits that repeat themselves and name ids that are gone or never were. -/
def trims : List GraphEdit :=
  [.remove "z", .clearTouching ⟨"7", "a", "out", "z", "in"⟩,
    .clearTouching ⟨"2", "b", "out", "b", "in"⟩, .remove "a", .clear "a", .remove "a",
    .clearTouching ⟨"1", "a", "out", "b", "in"⟩]

/-- Of three nodes one is removed and another is cleared, with edges between all of them. -/
theorem edits_leave_rest_tangled :
    tangled.IsLinked ∧ tangled.Remains trims (trims.foldl GraphEdit.perform tangled) ∧
      ((trims.foldl GraphEdit.perform tangled).nodes.map fun n ↦ (n.id, n.data.fault)) =
        [("b", none), ("c", some (.execution ["c"]))] ∧
      (trims.foldl GraphEdit.perform tangled).edges.map EditorEdge.id = ["2", "5"] ∧
      (trims.foldl GraphEdit.perform tangled).Ignores "a" := by
  have hlinked : tangled.IsLinked := ⟨by decide, by decide⟩
  have hrest := edits_leave_rest hlinked trims
  exact ⟨hlinked, hrest, by decide, by decide, hrest.unknown "a" (by decide)⟩

/-- With a repeated id a removal leaves the second node and takes its edge away. -/
example (g : EditorGraph)
    (hg : g = ⟨[faulty "a", faulty "a"], [⟨"1", "a", "out", "a", "in"⟩], none⟩) :
    (g.removeNode "a").ids = ["a"] ∧ (g.removeNode "a").edges = [] := by
  subst hg
  decide

/-- An edge to an id that no node has outlives the removal of that id. -/
example (g : EditorGraph) (hg : g = ⟨[faulty "a"], [⟨"1", "a", "out", "z", "in"⟩], none⟩) :
    (g.removeNode "z").edges = g.edges := by
  subst hg
  decide

end EditorGraph

end GraphSession
