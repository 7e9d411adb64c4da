import GraphSession.Patch.Path
import GraphSession.Project.Wire

/-!
# Applying patches

A patch writes one value at one place of a project. Either it is accepted and exactly that place
changes, or it is rejected for one cause and the project stays as it was: `PatchOp.apply` returns
the new project or the cause, so a half-applied patch cannot be expressed.

**Which cause wins.** A patch of a whole node decodes its value before it looks for the node; a
patch of a field or an entry looks for the node first.

**Null.** It clears an optional field, empties the parameters, and removes an entry. Removing an
entry never creates a map. Parameters are removed by moving the last entry into the gap, the other
maps close it.

`PatchOp.applyAll` goes on after a rejection and keeps the causes in order.
-/

namespace GraphSession

/-- A value for a place. -/
structure PatchOp where
  key : PatchPath
  value : Json

namespace PatchOp

/-- An operation as an object of its path and its value. -/
def encode (op : PatchOp) : Json :=
  .obj [("key", .arr (op.key.map Segment.encode)), ("value", op.value)]

/-- An operation from an object or a list. Its value is free-form and may be null, which is how an
entry is removed. -/
def decode : Decoder PatchOp := fun t ↦ do
  let r ← t.record "struct PatchOp" ["key", "value"]
  r.finish <|
    PatchOp.mk <$> r.required "key" (Tree.list Segment.decode)
      <*> r.required "value" Tree.freeForm

end PatchOp

/-- The place of the node that a selector names. -/
def NodeSelector.position? (nodes : List Node) : NodeSelector → Option Nat
  | .index n => if n < nodes.length then some n else none
  | .id s => nodes.findIdx? fun n ↦ n.id = s

/-- A node with one field set to what a value decodes to. -/
def NodeField.set (f : NodeField) (value : Json) (n : Node) : Except Mismatch Node :=
  let t := Tree.ofJson value
  match f with
  | .position => (Position.decode t).map fun p ↦ { n with position := p }
  | .param =>
    (Tree.optional (Tree.map Tree.freeForm) t).map fun m ↦ { n with param := m.getD ∅ }
  | .runtime => (Tree.optional Tree.double t).map fun r ↦ { n with runtime := r }
  | .schemaOut =>
    (Tree.optional (Tree.map Tree.freeForm) t).map fun m ↦ { n with schemaOut := m }
  | .dataOut => (Tree.optional decodeHandles t).map fun m ↦ { n with dataOut := m }
  | .fault => (Tree.optional NodeFault.decode t).map fun e ↦ { n with fault := e }

/-- A node with one entry of a map bound to a value, or removed by `null`. -/
def MapField.setEntry (f : MapField) (key : String) (value : Json) (n : Node) :
    Except Mismatch Node :=
  match f with
  | .param =>
    if value.isNull then .ok { n with param := n.param.eraseSwap key }
    else .ok { n with param := n.param.insert key value }
  | .schemaOut =>
    if value.isNull then .ok { n with schemaOut := n.schemaOut.map fun m ↦ m.erase key }
    else .ok { n with schemaOut := some ((n.schemaOut.getD ∅).insert key value) }
  | .dataOut =>
    if value.isNull then .ok { n with dataOut := n.dataOut.map fun m ↦ m.erase key }
    else
      (Tree.string (Tree.ofJson value)).map fun h ↦
        { n with dataOut := some ((n.dataOut.getD ∅).insert key h) }

namespace Project

/-- Changes the node that a selector names, if the change is accepted. -/
def editNode (p : Project) (sel : NodeSelector) (edit : Node → Except PatchFault Node) :
    Except PatchFault Project :=
  match sel.position? p.workflow.nodes with
  | none => .error (.nodeNotFound sel.text)
  | some i =>
    match p.workflow.nodes[i]? with
    | none => .error (.nodeNotFound sel.text)
    | some n =>
      (edit n).map fun n' ↦
        { p with workflow := { p.workflow with nodes := p.workflow.nodes.set i n' } }

end Project

namespace PatchOp

/-- Writes a value at a place. -/
def write (value : Json) (path : String) (p : Project) :
    PatchTarget → Except PatchFault Project
  | .workflowError =>
    match Tree.optional Tree.string (Tree.ofJson value) with
    | .error m => .error (.invalidValue path m.message)
    | .ok e => .ok { p with workflow := { p.workflow with error := e } }
  | .node sel =>
    match Node.decode (Tree.ofJson value) with
    | .error m => .error (.invalidValue path m.message)
    | .ok n' =>
      p.editNode sel fun n ↦
        if n'.id = n.id ∧ n'.kind = n.kind then .ok n' else .error (.immutable path)
  | .field sel f =>
    p.editNode sel fun n ↦ (f.set value n).mapError fun m ↦ .invalidValue path m.message
  | .entry sel f key =>
    p.editNode sel fun n ↦
      (f.setEntry key value n).mapError fun m ↦ .invalidValue path m.message

/-- Applies a patch. -/
def apply (p : Project) (op : PatchOp) : Except PatchFault Project :=
  match PatchTarget.ofPath op.key with
  | .error e => .error e
  | .ok target => write op.value op.key.text p target

/-- Applies patches in order. A rejected patch changes nothing, and its cause is kept. -/
def applyAll (p : Project) : List PatchOp → Project × List PatchFault
  | [] => (p, [])
  | op :: rest =>
    match apply p op with
    | .ok p' => applyAll p' rest
    | .error e =>
      let r := applyAll p rest
      (r.1, e :: r.2)

end PatchOp

end GraphSession
