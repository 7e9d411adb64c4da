import GraphSession.Json.Writer

/-!
# Outputs

What a data handle stands for once it is fetched, and what the file store holds: views of node
outputs, references to stored files, and file contents.
-/

namespace GraphSession

/-- Rows under named columns. -/
structure Table where
  columns : List String
  rows : List (List Json)
  /-- How many rows the backend has, which may be more than are here. -/
  totalRows : Option Nat

/-- A file in the store. -/
structure FileRef where
  key : String
  filename : String
  size : Nat
  deriving DecidableEq

/-- An output of a node, as shown. -/
inductive OutputView where
  | int (n : Int)
  | float (d : Double)
  | str (s : String)
  | bool (b : Bool)
  | table (t : Table)
  | file (f : FileRef)

namespace OutputView

/-- The names of the kinds of view. -/
def kindNames : List String := ["int", "float", "str", "bool", "table", "file"]

/-- The name of the kind of a view, which tells its content apart from that of another kind. -/
def kindName : OutputView → String
  | .int _ => "int"
  | .float _ => "float"
  | .str _ => "str"
  | .bool _ => "bool"
  | .table _ => "table"
  | .file _ => "file"

/-- How many rows a table shows. -/
def rowCount? : OutputView → Option Nat
  | .table t => some t.rows.length
  | _ => none

end OutputView

/-- The content of a stored file. -/
inductive FileContent where
  | bytes (bs : List UInt8)
  /-- A document that was parsed on arrival. -/
  | structured (j : Json)
  deriving Inhabited

namespace FileContent

/-- The length in bytes; of a structured content that of its text. -/
def length : FileContent → Nat
  | .bytes bs => bs.length
  | .structured j => j.text.utf8ByteSize

/-- The content has no bytes. A structured one always has some, as its text does. -/
def isEmpty (c : FileContent) : Bool := c.length == 0

end FileContent

end GraphSession
