import GraphSession.Proofs.Editor.Adoption

/-!
# A graph and its workflow carry the same

The editor's graph and the workflow that it is sent as are two forms of one thing: each is had back
from the other (`EditorGraph.ofWorkflow_toWorkflow`, `EditorGraph.toWorkflow_ofWorkflow`), ids that
repeat included.

**Only kinds survive in a live graph.** A workflow that is written into a graph replaces everything
there but the kind of a node that is known by its id. So a graph is had back from any live graph
that knows its nodes by the same kinds, whatever else is in it or missing. If the ids of the graph
are distinct the condition can be given exactly: of the nodes of the live graph with one id the last
one counts, and no other (`EditorGraph.adopt_toWorkflow_iff`).
-/

namespace GraphSession

namespace EditorGraph

variable {g live : EditorGraph} {held : List EditorNode} {nodes : List Node}

/-- The way there and back leaves every node as it is. -/
theorem map_ofNode_toNode (g : EditorGraph) :
    (g.toWorkflow.nodes.map fun n ↦ EditorNode.ofNode n.kind n) = g.nodes := by
  rw [toWorkflow, List.map_map]
  exact List.map_id _

/-- The way there and back leaves every edge as it is. -/
theorem map_ofEdge_toEdge (g : EditorGraph) :
    g.toWorkflow.edges.map EditorEdge.ofEdge = g.edges := by
  rw [toWorkflow, List.map_map]
  exact List.map_id _

/-- A graph is had back if its nodes are. -/
theorem adopt_toWorkflow_eq_iff : live.adopt g.toWorkflow = g ↔
    adoptNodes live.nodes g.toWorkflow.nodes =
      g.toWorkflow.nodes.map fun n ↦ EditorNode.ofNode n.kind n := by
  rw [map_ofNode_toNode]
  constructor
  · exact fun h ↦ congrArg EditorGraph.nodes h
  · intro h
    rw [adopt, h, map_ofEdge_toEdge]
    rfl

/-- **A graph is had back from a live one** that knows its nodes by the same kinds. -/
theorem adopt_toWorkflow (h : Agree live.nodes g.toWorkflow.nodes) : live.adopt g.toWorkflow = g :=
  adopt_toWorkflow_eq_iff.2 (adoptNodes_eq h)

/-- An empty graph disagrees with nothing. -/
theorem agree_empty (nodes : List Node) : Agree empty.nodes nodes :=
  fun _ _ _ he ↦ absurd he List.not_mem_nil

/-- A graph is made of its own workflow again. -/
theorem ofWorkflow_toWorkflow (g : EditorGraph) : ofWorkflow g.toWorkflow = g :=
  adopt_toWorkflow (agree_empty _)

/-- A workflow is that of the graph that is made of it. -/
theorem toWorkflow_ofWorkflow (w : Workflow) : (ofWorkflow w).toWorkflow = w :=
  toWorkflow_adopt (agree_empty _)

/-! ### Which kind counts -/

/-- Other nodes do not matter for the kind of a node. -/
theorem lastKind?_filter_of_ne {id other : String} (h : id ≠ other) (held : List EditorNode) :
    lastKind? (held.filter fun e ↦ e.id ≠ other) id = lastKind? held id := by
  rw [lastKind?, lastKind?, ← List.filter_reverse, List.find?_filter]
  congr 2
  funext e
  by_cases he : e.id = id <;> simp [he, h]

/-- **Nodes with distinct ids are adopted one by one,** each with the kind that is held for its
id. -/
theorem adoptNodes_eq_map (h : (nodes.map Node.id).Nodup) :
    adoptNodes held nodes =
      nodes.map fun n ↦ EditorNode.ofNode ((lastKind? held n.id).getD n.kind) n := by
  induction nodes generalizing held with
  | nil => rfl
  | cons n rest ih =>
    obtain ⟨hnot, hrest⟩ := List.nodup_cons.1 h
    -- what is no longer held has the id of `n`, and no later node asks for that id
    rw [adoptNodes, ih hrest, List.map_cons]
    congr 1
    refine List.map_congr_left fun m hm ↦ ?_
    have hne : m.id ≠ n.id := fun heq ↦ hnot (heq ▸ List.mem_map_of_mem hm)
    rw [lastKind?_filter_of_ne hne]

/-- A live graph knows the nodes of another one by their kinds: of its nodes with one id the last
has the kind that the other graph gives to the id. -/
def Knows (live g : EditorGraph) : Prop :=
  ∀ n ∈ g.nodes, ∀ kind, lastKind? live.nodes n.id = some kind → kind = n.kind

/-- The kind is all that can differ between nodes that are made of one node. -/
theorem ofNode_inj {kind kind' : NodeKind} {n : Node} :
    EditorNode.ofNode kind n = EditorNode.ofNode kind' n ↔ kind = kind' :=
  ⟨fun h ↦ congrArg EditorNode.kind h, fun h ↦ h ▸ rfl⟩

/-- A live graph becomes the given one exactly if it knows no other kinds for its nodes. -/
theorem adopt_toWorkflow_iff (hg : (g.nodes.map EditorNode.id).Nodup) :
    live.adopt g.toWorkflow = g ↔ live.Knows g := by
  have hids : (g.toWorkflow.nodes.map Node.id).Nodup := by
    rw [toWorkflow, List.map_map]
    exact hg
  rw [adopt_toWorkflow_eq_iff, adoptNodes_eq_map hids, List.map_inj_left, toWorkflow]
  refine List.forall_mem_map.trans (forall₂_congr fun n _ ↦ ?_)
  rw [ofNode_inj]
  change (lastKind? live.nodes n.id).getD n.kind = n.kind ↔ _
  cases lastKind? live.nodes n.id with
  | none => simp
  | some kind => simp

/-- **Graph and workflow carry the same information.** Each is had back from the other, with
whatever ids. A graph with distinct ids is had back from every live graph in which no node has an id
of the graph and another kind, and it is had back exactly from those that know its nodes by their
kinds. -/
theorem same_information :
    (∀ g : EditorGraph, ofWorkflow g.toWorkflow = g) ∧
      (∀ w : Workflow, (ofWorkflow w).toWorkflow = w) ∧
      ∀ g live : EditorGraph, (g.nodes.map EditorNode.id).Nodup →
        ((∀ e ∈ live.nodes, ∀ n ∈ g.nodes, e.id = n.id → e.kind = n.kind) →
          live.adopt g.toWorkflow = g) ∧
        (live.adopt g.toWorkflow = g ↔ live.Knows g) := by
  refine ⟨ofWorkflow_toWorkflow, toWorkflow_ofWorkflow, fun g live hg ↦
    ⟨fun hkinds ↦ ?_, adopt_toWorkflow_iff hg⟩⟩
  refine adopt_toWorkflow fun n hn e he hid ↦ ?_
  obtain ⟨m, hm, rfl⟩ := List.mem_map.1 hn
  exact hkinds e he m hm hid

/-- A live graph without one of the nodes and without the edge, with another node, other results and
an error. -/
def stirred : EditorGraph :=
  let place : Position := ⟨⟨1⟩, ⟨2⟩⟩
  ⟨[⟨"b", .constStr, place, ⟨∅, none, some ∅, none, some (.execution ["boom"])⟩⟩,
    ⟨"c", .plotBar, place, .empty⟩], [], some "late"⟩

/-- A live graph that holds a node of the same id and kind, and others besides, becomes the pair. -/
theorem same_information_stirred :
    ((pair "a" "b").nodes.map EditorNode.id).Nodup ∧
      (∀ e ∈ stirred.nodes, ∀ n ∈ (pair "a" "b").nodes, e.id = n.id → e.kind = n.kind) ∧
      stirred.adopt (pair "a" "b").toWorkflow = pair "a" "b" := by
  have hdistinct : ((pair "a" "b").nodes.map EditorNode.id).Nodup := by decide
  have hkinds : ∀ e ∈ stirred.nodes, ∀ n ∈ (pair "a" "b").nodes, e.id = n.id → e.kind = n.kind := by
    simp only [stirred, pair, List.forall_mem_cons]
    decide
  exact ⟨hdistinct, hkinds, (same_information.2.2 _ _ hdistinct).1 hkinds⟩

end EditorGraph

end GraphSession
