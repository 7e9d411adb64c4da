import GraphSession.Json.Decode
import GraphSession.Output.Basic

/-!
# Outputs on the wire

A view is its kind under `type` and its content under `value`, in either order, or the array of the
two. A content that comes before its kind has to be usable as a whole, since nothing says yet which
of its parts are asked for.
-/

namespace GraphSession

namespace Table

/-- A table as an object; the number of all its rows is written only if it is known. -/
def encode (t : Table) : Json :=
  .obj <|
    [("columns", .ofStrings t.columns), ("rows", .arr (t.rows.map .arr))] ++
    Json.fieldIfSome "total_rows" .ofNat t.totalRows

/-- A table from an object or a list. Its rows and the number of all of them may be missing. -/
def decode : Decoder Table := fun t ↦ do
  let r ← t.record "struct TableView" ["columns", "rows", "total_rows"]
  r.finish <|
    Table.mk <$> r.required "columns" (Tree.list Tree.string)
      <*> r.withDefault "rows" (Tree.list (Tree.list Tree.freeForm)) []
      <*> r.optional "total_rows" Tree.nat64

end Table

namespace FileRef

/-- A stored file as an object. -/
def encode (f : FileRef) : Json :=
  .obj [("key", .str f.key), ("filename", .str f.filename), ("size", .ofNat f.size)]

/-- A stored file from an object or a list; its size may be missing. -/
def decode : Decoder FileRef := fun t ↦ do
  let r ← t.record "struct FileRef" ["key", "filename", "size"]
  r.finish <|
    FileRef.mk <$> r.required "key" Tree.string
      <*> r.required "filename" Tree.string
      <*> r.withDefault "size" Tree.nat64 0

end FileRef

namespace OutputView

/-- What a view shows, without its kind. -/
def encodeContent : OutputView → Json
  | .int n => .int n
  | .float d => .ofDouble d
  | .str s => .str s
  | .bool b => .bool b
  | .table t => t.encode
  | .file f => f.encode

/-- A view as an object of its kind and its content. -/
def encode (v : OutputView) : Json :=
  .obj [("type", .str v.kindName), ("value", v.encodeContent)]

/-- The content of a view of a given kind. -/
def decodeContent (kind : String) : Decoder OutputView := fun t ↦
  if kind = "int" then (Tree.int64 t).map .int
  else if kind = "float" then (Tree.double t).map .float
  else if kind = "str" then (Tree.string t).map .str
  else if kind = "bool" then (Tree.flag t).map .bool
  else if kind = "table" then (Table.decode t).map .table
  else if kind = "file" then (FileRef.decode t).map .file
  else .error (.unknownVariant kind kindNames)

/-- The kind of a view, which has to be known before its content can be read. -/
def decodeKind : Decoder String :=
  Tree.choice (fun s ↦ if s ∈ kindNames then some s else none) kindNames

/-- Which of two names comes first among the fields. -/
def comesBefore (a b : String) (fields : List (String × Tree)) : Bool :=
  match fields.find? fun f ↦ f.1 = a || f.1 = b with
  | some f => f.1 = a
  | none => false

/-- A view from an object whose fields come in any order, or from a pair of kind and content. If the
content comes first it is kept as it is until the kind is known, so it has to be usable then. -/
def decode : Decoder OutputView
  | .obj fields =>
    match Record.repeated? ["type", "value"] fields with
    | some n => .error (.duplicateField n)
    | none =>
      match fields.lookup "type", fields.lookup "value" with
      | none, _ => .error (.missingField "type")
      | some _, none => .error (.missingField "value")
      | some kind, some content => do
        let kind ← decodeKind kind
        if comesBefore "value" "type" fields ∧ ¬content.usable then .error .unusable
        else decodeContent kind content
  | .arr [kind, content] => do decodeContent (← decodeKind kind) content
  | .arr items =>
    .error (.wrongLength items.length "adjacently tagged enum DataView")
  | t => .error (.wrongType t "adjacently tagged enum DataView")

/-- The text of a view. -/
def text (v : OutputView) : String := v.encode.text

end OutputView

end GraphSession
