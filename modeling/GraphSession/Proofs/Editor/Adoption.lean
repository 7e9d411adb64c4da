import Mathlib.Data.List.Nodup
import GraphSession.Editor.Graph
import GraphSession.Proofs.Patch.Skeleton
import GraphSession.Proofs.Task.Frames

/-!
# What a stream of frames leaves of a graph

The editor gives its graph away as a workflow, frames change the workflow, and the editor takes it
back (`EditorGraph.adopt`). Taking it back has one rule of its own: a node that the editor has keeps
the kind that it has there. Where the kinds agree the rule does nothing, and the graph shows the
workflow as it is (`EditorGraph.toWorkflow_adopt`).

After frames the kinds do agree if the ids of the nodes are distinct, since no patch changes the
skeleton. So whatever texts arrive, the graph has the nodes and edges that it had, and so has the
project (`EditorGraph.outlives_texts`). With a repeated id it may not be so, even if no text
arrives: the editor then takes one node for the other.
-/

namespace GraphSession

variable {p : Project}

/-- No text of a server changes the skeleton of the workflow. -/
theorem Project.skeleton_takeText (p : Project) (text : String) :
    (p.takeText text).workflow.skeleton = p.workflow.skeleton := by
  cases h : Frame.ofText? text with
  | none => rw [takeText_of_none h]
  | some f => rw [takeText_of_some h, PatchOp.skeleton_applyAll]

/-- **Texts in order.** -/
theorem Project.skeleton_foldl_takeText (p : Project) (texts : List String) :
    (texts.foldl takeText p).workflow.skeleton = p.workflow.skeleton := by
  induction texts generalizing p with
  | nil => rfl
  | cons text rest ih => rw [List.foldl_cons, ih, skeleton_takeText]

/-- Texts change the workflow only. -/
theorem Project.foldl_takeText_eq (p : Project) (texts : List String) :
    texts.foldl takeText p = { p with workflow := (texts.foldl takeText p).workflow } := by
  induction texts generalizing p with
  | nil => rfl
  | cons text rest ih =>
    rw [List.foldl_cons, ih, takeText_eq (p := p) rfl]

/-- What a node on the canvas keeps as long as it lives. -/
def EditorNode.identity (n : EditorNode) : String × NodeKind := (n.id, n.kind)

namespace EditorGraph

/-- Nodes of a workflow have the kinds that the editor knows. -/
def Agree (held : List EditorNode) (nodes : List Node) : Prop :=
  ∀ n ∈ nodes, ∀ e ∈ held, e.id = n.id → e.kind = n.kind

variable {held : List EditorNode} {nodes : List Node}

/-- A kind that is remembered for an id is that of a node with this id. -/
theorem mem_of_lastKind? {id : String} {kind : NodeKind} (h : lastKind? held id = some kind) :
    ∃ e ∈ held, e.id = id ∧ e.kind = kind := by
  obtain ⟨e, he, hkind⟩ := Option.map_eq_some_iff.1 h
  have hid := List.find?_some he
  exact ⟨e, List.mem_reverse.1 (List.mem_of_find?_eq_some he), of_decide_eq_true hid, hkind⟩

/-- Nodes whose kinds agree are adopted as they are. -/
theorem adoptNodes_eq (h : Agree held nodes) :
    adoptNodes held nodes = nodes.map fun n ↦ .ofNode n.kind n := by
  induction nodes generalizing held with
  | nil => rfl
  | cons n rest ih =>
    have hkind : (lastKind? held n.id).getD n.kind = n.kind := by
      cases hlast : lastKind? held n.id with
      | none => rfl
      | some kind =>
        obtain ⟨e, he, hid, rfl⟩ := mem_of_lastKind? hlast
        exact h n List.mem_cons_self e he hid
    have hrest : Agree (held.filter fun e ↦ e.id ≠ n.id) rest := fun m hm e he ↦
      h m (List.mem_cons_of_mem n hm) e (List.mem_of_mem_filter he)
    rw [adoptNodes, hkind, ih hrest, List.map_cons]

/-- **A workflow that agrees is shown as it is.** -/
theorem toWorkflow_adopt {g : EditorGraph} {w : Workflow} (h : Agree g.nodes w.nodes) :
    (g.adopt w).toWorkflow = w := by
  have hnodes : (w.nodes.map fun n ↦ EditorNode.ofNode n.kind n).map EditorNode.toNode =
      w.nodes := by
    rw [List.map_map]
    exact List.map_id _
  have hedges : (w.edges.map EditorEdge.ofEdge).map EditorEdge.toEdge = w.edges := by
    rw [List.map_map]
    exact List.map_id _
  rw [toWorkflow, adopt, adoptNodes_eq h, hnodes, hedges]

/-- The skeleton of a graph's workflow, read off the graph. -/
theorem skeleton_toWorkflow (g : EditorGraph) :
    g.toWorkflow.skeleton = (g.nodes.map EditorNode.identity, g.edges.map EditorEdge.toEdge) :=
  congrArg (·, _) List.map_map

/-- Edges are told apart by what a workflow says of them. -/
theorem toEdge_injective : Function.Injective EditorEdge.toEdge := by
  rintro ⟨⟩ ⟨⟩ h
  cases h
  rfl

/-- Graphs of the same skeleton have the same nodes and edges. -/
theorem eq_of_skeleton {g g' : EditorGraph}
    (h : g'.toWorkflow.skeleton = g.toWorkflow.skeleton) :
    g'.nodes.map EditorNode.identity = g.nodes.map EditorNode.identity ∧ g'.edges = g.edges := by
  rw [skeleton_toWorkflow, skeleton_toWorkflow, Prod.mk.injEq] at h
  exact ⟨h.1, toEdge_injective.list_map h.2⟩

/-- A workflow of the skeleton of a graph agrees with it, if the graph repeats no id. -/
theorem agree_of_skeleton {g : EditorGraph} {w : Workflow} (hg : (g.nodes.map EditorNode.id).Nodup)
    (h : w.skeleton = g.toWorkflow.skeleton) : Agree g.nodes w.nodes := by
  intro n hn e he hid
  rw [skeleton_toWorkflow, Workflow.skeleton, Prod.mk.injEq] at h
  obtain ⟨e', he', hsame⟩ := List.mem_map.1 (h.1 ▸ List.mem_map_of_mem hn)
  obtain ⟨hid', hkind⟩ := Prod.mk.inj hsame
  obtain rfl := List.inj_on_of_nodup_map hg he he' (hid.trans hid'.symm)
  exact hkind

/-- What a project has become leaves a graph its nodes and edges, when it is adopted. -/
structure Outlives (g : EditorGraph) (p q : Project) : Prop where
  /-- Nothing but the workflow of the project has changed. -/
  project : q = { p with workflow := q.workflow }
  /-- The workflow has the ids and kinds of the graph in its order, and its edges. -/
  workflow : q.workflow.skeleton = g.toWorkflow.skeleton
  /-- So has the graph that adopts the workflow. -/
  nodes : (g.adopt q.workflow).nodes.map EditorNode.identity = g.nodes.map EditorNode.identity
  edges : (g.adopt q.workflow).edges = g.edges
  /-- For the rest, it shows the workflow as it is. -/
  shown : (g.adopt q.workflow).toWorkflow = q.workflow

/-- **A graph outlives every stream of texts**: none adds, drops, moves or retypes a node, or
touches an edge. -/
theorem outlives_texts (g : EditorGraph) (hg : (g.nodes.map EditorNode.id).Nodup) (p : Project)
    (texts : List String) :
    g.Outlives p (texts.foldl Project.takeText { p with workflow := g.toWorkflow }) := by
  have hproject := Project.foldl_takeText_eq { p with workflow := g.toWorkflow } texts
  have hskeleton := Project.skeleton_foldl_takeText { p with workflow := g.toWorkflow } texts
  generalize texts.foldl Project.takeText { p with workflow := g.toWorkflow } = q at *
  have hshown : (g.adopt q.workflow).toWorkflow = q.workflow :=
    toWorkflow_adopt (agree_of_skeleton hg hskeleton)
  have hsame := eq_of_skeleton ((congrArg Workflow.skeleton hshown).trans hskeleton)
  exact ⟨hproject, hskeleton, hsame.1, hsame.2, hshown⟩

/-- Two nodes, under given ids, and an edge between them. -/
def pair (a b : String) : EditorGraph :=
  let place : Position := ⟨⟨0⟩, ⟨0⟩⟩
  ⟨[⟨a, .constInt, place, .empty⟩, ⟨b, .constStr, place, .empty⟩], [⟨"e", a, "out", b, "in"⟩], none⟩

/-- A frame that sets the error and would change the kind of a node and take the edges away; and no
frame. -/
def boldTexts : List String :=
  ["\x7b\"patch\":[\x7b\"key\":[\"workflow\",\"error\"],\"value\":\"late\"\x7d," ++
      "\x7b\"key\":[\"workflow\",\"nodes\",0,\"type\"],\"value\":\"plot_bar\"\x7d," ++
      "\x7b\"key\":[\"workflow\",\"edges\"],\"value\":[]\x7d]\x7d",
    "no frame"]

/-- Texts with patches, timers and errors leave the graph's nodes and edges as they are. -/
theorem outlives_boldTexts :
    (boldTexts.foldl Project.takeText (.carrying (pair "a" "b").toWorkflow)).workflow.error =
        some "late" ∧
      (pair "a" "b").Outlives (.carrying .empty)
        (boldTexts.foldl Project.takeText (.carrying (pair "a" "b").toWorkflow)) :=
  ⟨by decide +kernel, outlives_texts (pair "a" "b") (by decide) (.carrying .empty) boldTexts⟩

/-- With a repeated id the first node takes the kind of the second. -/
example : ((pair "a" "a").adopt (pair "a" "a").toWorkflow).nodes.map EditorNode.identity =
    [("a", .constStr), ("a", .constStr)] := by
  decide

end EditorGraph

end GraphSession
