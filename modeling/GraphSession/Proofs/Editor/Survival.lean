import GraphSession.Editor.Wire
import GraphSession.Proofs.Project.Survival

/-!
# The editor's graph is recovered

The graph of the editor is recovered like a workflow (`EditorGraph.recovers`). It writes what is not
there as `null`, so every field is found, and a field that holds nothing is told from one that holds
an empty map.
-/

namespace GraphSession

open Record Gathered

namespace NodeData

/-- What the data of a node hold of numbers survives on its own. -/
structure Durable (d : NodeData) : Prop where
  param : ∀ e ∈ d.param.entries, e.2.Durable
  runtime : ∀ x ∈ d.runtime, Survives Json.ofDouble Tree.double x
  schemaOut : ∀ m ∈ d.schemaOut, ∀ e ∈ m.entries, e.2.Durable

variable {d : NodeData}

theorem durable_encode (h : d.Durable) : d.encode.Durable := by
  refine Json.durable_obj
    (List.Sublist.refl ["param", "runtime", "schema_out", "data_out", "error"]) (by decide) ?_
  simp only [List.forall_mem_cons]
  exact ⟨Json.durable_ofMap h.param,
    Json.durable_ofOption fun x hx ↦ Json.durable_ofDouble (h.runtime x hx),
    Json.durable_ofOption fun m hm ↦ Json.durable_ofMap (h.schemaOut m hm),
    Json.durable_ofOption fun m _ ↦ durable_encodeHandles m,
    Json.durable_ofOption fun f _ ↦ NodeFault.durable_encode f, nofun⟩

/-- Durable data of a node is read back as it was. -/
theorem recovers (h : d.Durable) : Recovers encode decode d := by
  refine Record.recovered (durable_encode h) (seq_value (seq_value (seq_value (seq_value
    (map_value _ ?param) ?runtime) ?schemaOut) ?dataOut) ?fault)
  case param => exact withDefault_of_lookup rfl (Tree.freeMap_recovers fun e he ↦
    (h.param e he).wellFormed)
  case runtime =>
    exact optional_of_null (fun x hx ↦
      Tree.double_recovers (Json.isFinite_of_survives (h.runtime x hx)))
      (fun x hx ↦ Json.ofDouble_ne_null (Json.isFinite_of_survives (h.runtime x hx))) rfl
  case schemaOut =>
    exact optional_of_null (fun m hm ↦ Tree.freeMap_recovers fun e he ↦
      (h.schemaOut m hm e he).wellFormed)
      (fun _ _ ↦ nofun) rfl
  case dataOut => exact optional_of_null (fun m _ ↦ handles_recovers m) (fun _ _ ↦ nofun) rfl
  case fault =>
    exact optional_of_null (fun f _ ↦ NodeFault.recovers f) (fun f _ ↦ NodeFault.encode_ne_null f)
      rfl

end NodeData

namespace EditorNode

/-- Its place and its data hold nothing that does not survive. -/
structure Durable (n : EditorNode) : Prop where
  position : n.position.Durable
  data : n.data.Durable

variable {n : EditorNode}

theorem durable_encode (h : n.Durable) : n.encode.Durable := by
  refine Json.durable_obj (List.Sublist.refl ["id", "type", "position", "data"]) (by decide) ?_
  simp only [List.forall_mem_cons]
  exact ⟨.str _, .str _, Position.durable_encode h.position, NodeData.durable_encode h.data, nofun⟩

/-- A durable node is read back as it was. -/
theorem recovers (h : n.Durable) : Recovers encode decode n := by
  refine Record.recovered (durable_encode h)
    (seq_value (seq_value (seq_value (map_value _ ?id) ?kind) ?position) ?data)
  case id => exact required_of_lookup rfl (Tree.string_recovers n.id)
  case kind => exact required_of_lookup rfl (NodeKind.recovers n.kind)
  case position => exact required_of_lookup rfl (Position.recovers h.position.wellFormed)
  case data => exact withDefault_of_lookup rfl (NodeData.recovers h.data)

end EditorNode

namespace EditorEdge

theorem durable_encode (e : EditorEdge) : e.encode.Durable := by
  refine Json.durable_obj
    (List.Sublist.refl ["id", "source", "sourceHandle", "target", "targetHandle"]) (by decide) ?_
  simp only [List.forall_mem_cons]
  exact ⟨.str _, .str _, .str _, .str _, .str _, nofun⟩

/-- An edge is read back as it was. -/
theorem recovers (e : EditorEdge) : Recovers encode decode e := by
  refine Record.recovered (durable_encode e) (seq_value (seq_value (seq_value (seq_value
    (map_value _ ?id) ?source) ?sourceHandle) ?target) ?targetHandle)
  all_goals exact required_of_lookup rfl (Tree.string_recovers _)

end EditorEdge

namespace EditorGraph

/-- Everything that its nodes hold is. -/
def Durable (g : EditorGraph) : Prop := ∀ n ∈ g.nodes, n.Durable

variable {g : EditorGraph}

/-- A durable graph is written as a durable value. -/
theorem durable_encode (h : g.Durable) : g.encode.Durable := by
  refine Json.durable_obj (List.Sublist.refl ["nodes", "edges", "error"]) (by decide) ?_
  simp only [List.forall_mem_cons]
  exact ⟨Json.durable_list fun n hn ↦ EditorNode.durable_encode (h n hn),
    Json.durable_list fun e _ ↦ EditorEdge.durable_encode e,
    Json.durable_ofOption fun s _ ↦ .str s, nofun⟩

/-- A durable graph is read back as it was. -/
theorem recovers (h : g.Durable) : Recovers encode decode g := by
  refine Record.recovered (durable_encode h)
    (seq_value (seq_value (map_value _ ?nodes) ?edges) ?error)
  case nodes =>
    exact withDefault_of_lookup rfl (Tree.list_recovers fun n hn ↦ EditorNode.recovers (h n hn))
  case edges => exact withDefault_of_lookup rfl (Tree.list_recovers fun e _ ↦ EditorEdge.recovers e)
  case error => exact optional_of_null (fun s _ ↦ Tree.string_recovers s) (fun _ _ ↦ nofun) rfl

end EditorGraph

end GraphSession
