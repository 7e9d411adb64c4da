import GraphSession.Project.Wire

/-!
# The graph as the editor holds it

The editor keeps the same graph as a workflow in a shape of its own: parameters and results of a
node sit in a block `data`, and edges speak of handles. `EditorGraph.toWorkflow` and
`EditorGraph.adopt` pass between the two.

**Adopting a workflow.** The new graph has the nodes of the workflow in its order, with everything
it says of them except one thing: a node that the editor already has keeps its kind. With repeated
ids, the last node of the editor counts, and only for the first node of the workflow with that id.
Edges and the error are those of the workflow.

The edits remove a node together with the edges that touch it, and clear faults.
-/

namespace GraphSession

/-- Parameters and results of a node. -/
structure NodeData where
  param : OrderedMap Json
  runtime : Option Double
  schemaOut : Option (OrderedMap Json)
  dataOut : Option (OrderedMap DataHandle)
  fault : Option NodeFault

namespace NodeData

/-- No parameters, and no results of a run. -/
def empty : NodeData := ⟨∅, none, none, none, none⟩

end NodeData

/-- A node on the canvas. -/
structure EditorNode where
  id : String
  kind : NodeKind
  position : Position
  data : NodeData

/-- A connection on the canvas. -/
structure EditorEdge where
  id : String
  source : String
  sourceHandle : String
  target : String
  targetHandle : String
  deriving DecidableEq

/-- The graph on the canvas. -/
structure EditorGraph where
  nodes : List EditorNode
  edges : List EditorEdge
  error : Option String

namespace EditorNode

/-- The node of a workflow that says the same. Nothing of the editor's node is lost. -/
def toNode (n : EditorNode) : Node :=
  { id := n.id, kind := n.kind, position := n.position, param := n.data.param,
    runtime := n.data.runtime, schemaOut := n.data.schemaOut, dataOut := n.data.dataOut,
    fault := n.data.fault }

/-- The node of a workflow on the canvas, under a given kind. -/
def ofNode (kind : NodeKind) (n : Node) : EditorNode :=
  { id := n.id, kind := kind, position := n.position,
    data := ⟨n.param, n.runtime, n.schemaOut, n.dataOut, n.fault⟩ }

end EditorNode

namespace EditorEdge

/-- The edge of a workflow that says the same; its ports are the handles. -/
def toEdge (e : EditorEdge) : Edge :=
  ⟨e.id, e.source, e.sourceHandle, e.target, e.targetHandle⟩

/-- The edge of a graph that says the same; its handles are the ports. -/
def ofEdge (e : Edge) : EditorEdge :=
  ⟨e.id, e.source, e.sourcePort, e.target, e.targetPort⟩

/-- Whether the edge starts or ends at a node. -/
def touches (e : EditorEdge) (id : String) : Bool := e.source = id || e.target = id

end EditorEdge

namespace EditorGraph

/-- A graph with nothing in it. -/
def empty : EditorGraph := ⟨[], [], none⟩

/-- The workflow that says what the graph says, node by node and edge by edge. -/
def toWorkflow (g : EditorGraph) : Workflow :=
  { nodes := g.nodes.map EditorNode.toNode, edges := g.edges.map EditorEdge.toEdge,
    error := g.error }

/-- The kind of the last of the nodes with that id. -/
def lastKind? (nodes : List EditorNode) (id : String) : Option NodeKind :=
  (nodes.reverse.find? fun n ↦ n.id = id).map EditorNode.kind

/-- The nodes of a workflow on the canvas. `held` are the nodes that the editor still has; a node
that has been matched is no longer held. -/
def adoptNodes (held : List EditorNode) : List Node → List EditorNode
  | [] => []
  | n :: rest =>
    .ofNode ((lastKind? held n.id).getD n.kind) n ::
      adoptNodes (held.filter fun h ↦ h.id ≠ n.id) rest

/-- The graph with a workflow written into it. -/
def adopt (g : EditorGraph) (w : Workflow) : EditorGraph :=
  { nodes := adoptNodes g.nodes w.nodes, edges := w.edges.map EditorEdge.ofEdge, error := w.error }

/-- The graph of a workflow. -/
def ofWorkflow (w : Workflow) : EditorGraph := empty.adopt w

/-- The first node with that id. -/
def node? (g : EditorGraph) (id : String) : Option EditorNode := g.nodes.find? fun n ↦ n.id = id

/-- The data handles that some node refers to. -/
def dataHandles (g : EditorGraph) : NameSet :=
  GraphSession.dataHandles (g.nodes.map fun n ↦ n.data.dataOut)

/-- Without the first node with that id and the edges that touch it; unchanged if there is no such
node. -/
def removeNode (g : EditorGraph) (id : String) : EditorGraph :=
  match g.node? id with
  | none => g
  | some _ =>
    { g with
      nodes := g.nodes.eraseP fun n ↦ n.id = id
      edges := g.edges.filter fun e ↦ !e.touches id }

/-- Changes the first node with that id. -/
def modifyNode (g : EditorGraph) (id : String) (f : EditorNode → EditorNode) : EditorGraph :=
  { g with nodes := modifyFirst (fun n ↦ n.id = id) f g.nodes }

/-- The fault of the first node with that id. -/
def faultAt? (g : EditorGraph) (id : String) : Option NodeFault :=
  (g.node? id).bind fun n ↦ n.data.fault

/-- Without the fault of the first node with that id. -/
def clearFault (g : EditorGraph) (id : String) : EditorGraph :=
  g.modifyNode id fun n ↦ { n with data := { n.data with fault := none } }

/-- Without the faults of both ends of an edge. -/
def clearFaultsTouching (g : EditorGraph) (e : EditorEdge) : EditorGraph :=
  (g.clearFault e.source).clearFault e.target

/-- With other data handles at the first node with that id. -/
def setDataOut (g : EditorGraph) (id : String) (m : Option (OrderedMap DataHandle)) : EditorGraph :=
  g.modifyNode id fun n ↦ { n with data := { n.data with dataOut := m } }

end EditorGraph

end GraphSession
