import GraphSession.Json.Decode

/-!
# Patch paths

A patch names the place it writes by a path of keys and indices from the project's root. Only a
closed set of places can be written, the `PatchTarget`s, and `PatchTarget.ofPath` is the one passage
from paths to them. `PatchTarget.path` is the way back; a target has that path and, when it is an
entry of a map, those that write the entry's key as an index.

A path that names a node's id or kind is told apart from one that names nothing: the place exists
and never changes.
-/

namespace GraphSession

/-- One step of a path. -/
inductive Segment where
  | index (n : Nat)
  | key (s : String)
  deriving DecidableEq

namespace Segment

/-- A segment as it is shown in paths: an index in decimal digits. -/
def text : Segment → String
  | .index n => String.ofList (Nat.toDigits 10 n)
  | .key s => s

/-- A segment as a number or as a text. -/
def encode : Segment → Json
  | .index n => .ofNat n
  | .key s => .str s

/-- An unsigned integer is an index and a string is a key, also one of digits. -/
def decode : Decoder Segment
  | .int n =>
    if 0 ≤ n ∧ n.toNat < Nat.pow 2 64 then .ok (.index n.toNat)
    else .error (.noAlternative "PathSegment")
  | .str s => .ok (.key s)
  | _ => .error (.noAlternative "PathSegment")

end Segment

/-- A path from the root of a project. -/
abbrev PatchPath := List Segment

/-- The segments joined by points. -/
def PatchPath.text (path : PatchPath) : String := ".".intercalate (path.map Segment.text)

/-- How a path names a node. -/
inductive NodeSelector where
  | index (n : Nat)
  | id (s : String)
  deriving DecidableEq

namespace NodeSelector

/-- A selector as it is shown: an index in decimal digits. -/
def text : NodeSelector → String
  | .index n => String.ofList (Nat.toDigits 10 n)
  | .id s => s

/-- The node that a segment means, by index or by id. -/
def ofSegment : Segment → NodeSelector
  | .index n => .index n
  | .key s => .id s

/-- The segment that selects a node so. -/
def segment : NodeSelector → Segment
  | .index n => .index n
  | .id s => .key s

end NodeSelector

/-- A field of a node that can be written as a whole. -/
inductive NodeField where
  | position | param | runtime | schemaOut | dataOut | fault
  deriving DecidableEq

namespace NodeField

/-- All fields that can be patched. -/
def all : List NodeField := [position, param, runtime, schemaOut, dataOut, fault]

/-- What a field is called in a path. -/
def name : NodeField → String
  | position => "position"
  | param => "param"
  | runtime => "runtime"
  | schemaOut => "schema_out"
  | dataOut => "data_out"
  | fault => "error"

/-- The field of a name, if it can be patched. -/
def ofName? (s : String) : Option NodeField := all.find? fun f ↦ f.name = s

end NodeField

/-- A field of a node whose entries can be written one by one. -/
inductive MapField where
  | param | schemaOut | dataOut
  deriving DecidableEq

namespace MapField

/-- All fields whose entries can be patched one by one. -/
def all : List MapField := [param, schemaOut, dataOut]

/-- What a map field is called in a path. -/
def name : MapField → String
  | param => "param"
  | schemaOut => "schema_out"
  | dataOut => "data_out"

/-- The map field of a name, if there is one. -/
def ofName? (s : String) : Option MapField := all.find? fun f ↦ f.name = s

end MapField

/-- A place that a patch can write. -/
inductive PatchTarget where
  | workflowError
  | node (sel : NodeSelector)
  | field (sel : NodeSelector) (f : NodeField)
  | entry (sel : NodeSelector) (f : MapField) (key : String)
  deriving DecidableEq

/-- Why a patch was rejected. -/
inductive PatchFault where
  /-- The path names no place of a project. -/
  | unknownPath (path : String)
  /-- The path names a node that is not there. -/
  | nodeNotFound (node : String)
  /-- The patch would change the id or the kind of a node. -/
  | immutable (path : String)
  /-- The patch itself does not decode. -/
  | malformed (path message : String)
  /-- The value does not decode as what the place holds. -/
  | invalidValue (path message : String)
  deriving DecidableEq

namespace PatchFault

/-- What is shown of a rejected operation; the path or the node is named in each case. -/
def message : PatchFault → String
  | .unknownPath path => "unknown patch path: " ++ path
  | .nodeNotFound node => "patch targets missing node " ++ node
  | .immutable path => "patch targets immutable field " ++ path
  | .malformed path m => "malformed patch operation at " ++ path ++ ": " ++ m
  | .invalidValue path m => "invalid value for " ++ path ++ ": " ++ m

end PatchFault

namespace PatchTarget

/-- The names of the fields that never change. -/
def fixedFields : List String := ["id", "type"]

/-- The place inside a node that the rest of a path names. -/
def ofNodePath (path : PatchPath) (sel : NodeSelector) : PatchPath → Except PatchFault PatchTarget
  | [] => .ok (.node sel)
  | [.key name] =>
    match NodeField.ofName? name with
    | some f => .ok (.field sel f)
    | none =>
      .error (if name ∈ fixedFields then .immutable path.text else .unknownPath path.text)
  | [.key name, last] =>
    match MapField.ofName? name with
    | some f => .ok (.entry sel f last.text)
    | none => .error (.unknownPath path.text)
  | _ => .error (.unknownPath path.text)

/-- The place that a path names. -/
def ofPath (path : PatchPath) : Except PatchFault PatchTarget :=
  match path with
  | [.key "workflow", .key "error"] => .ok .workflowError
  | .key "workflow" :: .key "nodes" :: sel :: rest =>
    ofNodePath path (.ofSegment sel) rest
  | _ => .error (.unknownPath path.text)

/-- The path that names a place, with the key of an entry as a key. -/
def path : PatchTarget → PatchPath
  | .workflowError => [.key "workflow", .key "error"]
  | .node sel => [.key "workflow", .key "nodes", sel.segment]
  | .field sel f => [.key "workflow", .key "nodes", sel.segment, .key f.name]
  | .entry sel f k => [.key "workflow", .key "nodes", sel.segment, .key f.name, .key k]

end PatchTarget

end GraphSession
