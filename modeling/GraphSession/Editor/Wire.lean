import GraphSession.Editor.Graph

/-!
# The editor's graph as a value

Unlike a workflow, the editor's graph writes every field, with `null` where there is nothing. When
reading, everything but identity, kind and position may be missing.
-/

namespace GraphSession

namespace NodeData

/-- The data of a node as an object, with every field written, if only as null. -/
def encode (d : NodeData) : Json :=
  .obj [("param", .ofMap d.param), ("runtime", .ofOption .ofDouble d.runtime),
    ("schema_out", .ofOption .ofMap d.schemaOut), ("data_out", .ofOption encodeHandles d.dataOut),
    ("error", .ofOption NodeFault.encode d.fault)]

/-- The data of a node from an object or from the list of its fields; what is missing is empty. -/
def decode : Decoder NodeData := fun t ↦ do
  let r ← t.record "struct NodeData" ["param", "runtime", "schema_out", "data_out", "error"]
  r.finish <|
    NodeData.mk <$> r.withDefault "param" (Tree.map Tree.freeForm) ∅
      <*> r.optional "runtime" Tree.double
      <*> r.optional "schema_out" (Tree.map Tree.freeForm)
      <*> r.optional "data_out" decodeHandles
      <*> r.optional "error" NodeFault.decode

end NodeData

namespace EditorNode

/-- A node of the graph as an object. -/
def encode (n : EditorNode) : Json :=
  .obj [("id", .str n.id), ("type", n.kind.encode), ("position", n.position.encode),
    ("data", n.data.encode)]

/-- A node of the graph from an object or a list; its data may be missing. -/
def decode : Decoder EditorNode := fun t ↦ do
  let r ← t.record "struct EditorNode" ["id", "type", "position", "data"]
  r.finish <|
    EditorNode.mk <$> r.required "id" Tree.string
      <*> r.required "type" NodeKind.decode
      <*> r.required "position" Position.decode
      <*> r.withDefault "data" NodeData.decode .empty

end EditorNode

namespace EditorEdge

/-- An edge of the graph as an object, whose fields have the names that the editor uses. -/
def encode (e : EditorEdge) : Json :=
  .obj [("id", .str e.id), ("source", .str e.source), ("sourceHandle", .str e.sourceHandle),
    ("target", .str e.target), ("targetHandle", .str e.targetHandle)]

/-- An edge of the graph from an object or a list, all of whose fields have to be there. -/
def decode : Decoder EditorEdge := fun t ↦ do
  let r ← t.record "struct EditorEdge" ["id", "source", "sourceHandle", "target", "targetHandle"]
  r.finish <|
    EditorEdge.mk <$> r.required "id" Tree.string
      <*> r.required "source" Tree.string
      <*> r.required "sourceHandle" Tree.string
      <*> r.required "target" Tree.string
      <*> r.required "targetHandle" Tree.string

end EditorEdge

namespace EditorGraph

/-- The graph as an object, with the error of the workflow. -/
def encode (g : EditorGraph) : Json :=
  .obj [("nodes", .arr (g.nodes.map EditorNode.encode)),
    ("edges", .arr (g.edges.map EditorEdge.encode)), ("error", .ofOption .str g.error)]

/-- The graph from an object or a list. Without nodes or edges it has none. -/
def decode : Decoder EditorGraph := fun t ↦ do
  let r ← t.record "struct EditableGraph" ["nodes", "edges", "error"]
  r.finish <|
    EditorGraph.mk <$> r.withDefault "nodes" (Tree.list EditorNode.decode) []
      <*> r.withDefault "edges" (Tree.list EditorEdge.decode) []
      <*> r.optional "error" Tree.string

/-- The text of the graph. -/
def text (g : EditorGraph) : String := g.encode.text

end EditorGraph

end GraphSession
