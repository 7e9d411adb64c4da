import GraphSession.Json.Decode
import GraphSession.Project.Basic

/-!
# Projects on the wire

For each type of a project an encoder to values and a decoder from trees. Encoders write fields in
declaration order and leave out an optional field that holds nothing; decoders accept what
`GraphSession.Json.Decode` says of records, with the parameters and everything optional as fields
that may be missing.

A fault is a record with its variant in a field `type` among the others, or an array with the
variant in front.
-/

namespace GraphSession

namespace Moment

/-- A moment as its text. -/
def encode (m : Moment) : Json := .str m.text

/-- A moment from its text, leniently. -/
def decode : Decoder Moment
  | .str s =>
    match ofText? s with
    | some m => .ok m
    | none => .error (.badTime s)
  | t => .error (.wrongType t "an RFC 3339 formatted date and time string")

end Moment

namespace NodeKind

/-- A kind as its name. -/
def encode (k : NodeKind) : Json := .str k.name

/-- A kind from its name. -/
def decode : Decoder NodeKind := Tree.choice ofName? (all.map name)

end NodeKind

namespace Position

/-- A position as an object of its coordinates. -/
def encode (p : Position) : Json := .obj [("x", .ofDouble p.x), ("y", .ofDouble p.y)]

/-- A position from an object or a list; a coordinate may be written as an integer. -/
def decode : Decoder Position := fun t ↦ do
  let r ← t.record "struct Position" ["x", "y"]
  r.finish (Position.mk <$> r.required "x" Tree.double <*> r.required "y" Tree.double)

end Position

namespace NodeFault

/-- The variants, by their name on the wire. -/
def variantNames : List String := ["validation", "param", "execution"]

/-- A fault as an object with a tag for its kind. -/
def encode : NodeFault → Json
  | .validation ports messages =>
    .obj [("type", .str "validation"), ("ports", .ofStrings ports.toList),
      ("messages", .ofStrings messages)]
  | .parameter messages => .obj [("type", .str "param"), ("messages", .ofStrings messages)]
  | .execution messages => .obj [("type", .str "execution"), ("messages", .ofStrings messages)]

/-- The fields of a variant. -/
def fieldsOf (variant : String) : List String :=
  if variant = "validation" then ["ports", "messages"] else ["messages"]

/-- A fault from the parts of its variant. -/
def ofParts (variant : String) (r : Record) : Except Mismatch NodeFault :=
  let messages := r.withDefault "messages" (Tree.list Tree.string) []
  if variant = "validation" then
    let ports := r.withDefault "ports" (fun t ↦ (Tree.list Tree.string t).map NameSet.ofList) ∅
    r.finish (NodeFault.validation <$> ports <*> messages)
  else if variant = "param" then r.finish (NodeFault.parameter <$> messages)
  else if variant = "execution" then r.finish (NodeFault.execution <$> messages)
  else .error (.unknownVariant variant variantNames)

/-- The name of a variant, which has to be known. -/
def decodeVariant : Decoder String
  | .str s =>
    if s ∈ variantNames then .ok s else .error (.unknownVariant s variantNames)
  | t => .error (.wrongType t "variant identifier")

/-- How a number of elements is spoken of. -/
def elementCount (n : Nat) : String :=
  if n = 1 then "1 element in sequence"
  else String.ofList (Nat.toDigits 10 n) ++ " elements in sequence"

/-- A fault from an object with a tag, or from a list whose first element is the tag. -/
def decode : Decoder NodeFault := fun t ↦
  if t.usable then
    match t with
    | .obj fields =>
      if 1 < (fields.filter fun f ↦ f.1 = "type").length then .error (.duplicateField "type")
      else
        match fields.lookup "type" with
        | none => .error (.missingField "type")
        | some tag => do
          let variant ← decodeVariant tag
          let rest := fields.filter fun f ↦ f.1 ≠ "type"
          ofParts variant (← Record.ofFields "struct variant" (fieldsOf variant) rest)
    | .arr [] => .error (.missingField "type")
    | .arr (tag :: rest) => do
      let variant ← decodeVariant tag
      let names := fieldsOf variant
      ofParts variant (Record.ofItems "struct variant" names rest (elementCount names.length))
    | t => .error (.wrongType t "internally tagged enum ProjNodeError")
  else .error .unusable

end NodeFault

/-- Data handles by port. -/
def decodeHandles : Decoder (OrderedMap DataHandle) := Tree.map Tree.string

/-- Handles by port, as texts. -/
def encodeHandles (m : OrderedMap DataHandle) : Json := .ofMap (m.map .str)

namespace Node

/-- The names of the fields of a node, in the order in which they are declared. -/
def fieldNames : List String :=
  ["id", "type", "position", "param", "runtime", "schema_out", "data_out", "error"]

/-- A node as an object that leaves out what no run has produced. -/
def encode (n : Node) : Json :=
  .obj <|
    [("id", .str n.id), ("type", n.kind.encode), ("position", n.position.encode),
      ("param", .ofMap n.param)] ++
    Json.fieldIfSome "runtime" .ofDouble n.runtime ++
    Json.fieldIfSome "schema_out" .ofMap n.schemaOut ++
    Json.fieldIfSome "data_out" encodeHandles n.dataOut ++
    Json.fieldIfSome "error" NodeFault.encode n.fault

/-- A node from an object or a list. Parameters and results of a run may be missing. -/
def decode : Decoder Node := fun t ↦ do
  let r ← t.record "struct Node" fieldNames
  r.finish <|
    Node.mk <$> r.required "id" Tree.string
      <*> r.required "type" NodeKind.decode
      <*> r.required "position" Position.decode
      <*> r.withDefault "param" (Tree.map Tree.freeForm) ∅
      <*> r.optional "runtime" Tree.double
      <*> r.optional "schema_out" (Tree.map Tree.freeForm)
      <*> r.optional "data_out" decodeHandles
      <*> r.optional "error" NodeFault.decode

end Node

namespace Edge

/-- An edge as an object, whose fields have the names that documents use. -/
def encode (e : Edge) : Json :=
  .obj [("id", .str e.id), ("src", .str e.source), ("src_port", .str e.sourcePort),
    ("tar", .str e.target), ("tar_port", .str e.targetPort)]

/-- An edge from an object or a list, all of whose fields have to be there. -/
def decode : Decoder Edge := fun t ↦ do
  let r ← t.record "struct Edge" ["id", "src", "src_port", "tar", "tar_port"]
  r.finish <|
    Edge.mk <$> r.required "id" Tree.string
      <*> r.required "src" Tree.string
      <*> r.required "src_port" Tree.string
      <*> r.required "tar" Tree.string
      <*> r.required "tar_port" Tree.string

end Edge

namespace Workflow

/-- A workflow as an object; an error is written only if there is one. -/
def encode (w : Workflow) : Json :=
  .obj <|
    [("nodes", .arr (w.nodes.map Node.encode)), ("edges", .arr (w.edges.map Edge.encode))] ++
    Json.fieldIfSome "error" .str w.error

/-- A workflow from an object or a list. Without nodes or edges it has none. -/
def decode : Decoder Workflow := fun t ↦ do
  let r ← t.record "struct Workflow" ["nodes", "edges", "error"]
  r.finish <|
    Workflow.mk <$> r.withDefault "nodes" (Tree.list Node.decode) []
      <*> r.withDefault "edges" (Tree.list Edge.decode) []
      <*> r.optional "error" Tree.string

/-- The text of a workflow. -/
def text (w : Workflow) : String := w.encode.text

end Workflow

namespace Project

/-- A project as an object; a thumbnail is written only if there is one. -/
def encode (p : Project) : Json :=
  .obj <|
    [("id", .int p.id), ("name", .str p.name), ("owner", .int p.owner),
      ("updated_at", p.updatedAt.encode)] ++
    Json.fieldIfSome "thumb" .str p.thumbnail ++
    [("workflow", p.workflow.encode)]

/-- A project from an object or a list. Its thumbnail and its workflow may be missing. -/
def decode : Decoder Project := fun t ↦ do
  let r ← t.record "struct Project" ["id", "name", "owner", "updated_at", "thumb", "workflow"]
  r.finish <|
    Project.mk <$> r.required "id" Tree.int64
      <*> r.required "name" Tree.string
      <*> r.required "owner" Tree.int64
      <*> r.required "updated_at" Moment.decode
      <*> r.optional "thumb" Tree.string
      <*> r.withDefault "workflow" Workflow.decode .empty

/-- The text of a project. -/
def text (p : Project) : String := p.encode.text

end Project

namespace ProjectSummary

/-- A summary as an object; a thumbnail is written only if there is one. -/
def encode (p : ProjectSummary) : Json :=
  .obj <|
    [("id", .int p.id), ("name", .str p.name), ("updated_at", p.updatedAt.encode)] ++
    Json.fieldIfSome "thumb" .str p.thumbnail

/-- A summary from an object or a list, such as a project. -/
def decode : Decoder ProjectSummary := fun t ↦ do
  let r ← t.record "struct ProjectSummary" ["id", "name", "updated_at", "thumb"]
  r.finish <|
    ProjectSummary.mk <$> r.required "id" Tree.int64
      <*> r.required "name" Tree.string
      <*> r.required "updated_at" Moment.decode
      <*> r.optional "thumb" Tree.string

end ProjectSummary

end GraphSession
