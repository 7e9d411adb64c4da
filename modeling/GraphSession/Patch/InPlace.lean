import GraphSession.Patch.Apply

/-!
# Patches in place

A project that lives on is not replaced by a patch but changed by it, step by step: the node is
looked for, the value is decoded, fields are written. A step that fails ends the patch, and what the
steps before it have written stays written. `PatchOp.perform` takes the steps in this order, so here
a patch that is rejected halfway has a project to show for it, which `PatchOp.apply` has not.

An entry of a map that a node does not have takes two writes, of an empty map and of the entry in
it.
-/

namespace GraphSession

/-- Steps on a project. They end with a result or with the cause of a rejection, and with the
project as it is by then in both cases. -/
abbrev InPlace (α : Type) := EStateM PatchFault Project α

namespace InPlace

/-- Decodes a value for the place that a path names. -/
def decode {α : Type} (f : Decoder α) (value : Json) (path : String) : InPlace α :=
  match f (Tree.ofJson value) with
  | .ok a => pure a
  | .error m => throw (.invalidValue path m.message)

/-- Looks for the node that a selector names. -/
def find (sel : NodeSelector) : InPlace (Nat × Node) := do
  let p ← get
  match sel.position? p.workflow.nodes with
  | none => throw (.nodeNotFound sel.text)
  | some i =>
    match p.workflow.nodes[i]? with
    | none => throw (.nodeNotFound sel.text)
    | some n => pure (i, n)

/-- Writes to the node at a place. -/
def change (i : Nat) (f : Node → Node) : InPlace Unit :=
  modify fun p ↦ { p with workflow := { p.workflow with nodes := p.workflow.nodes.modify i f } }

/-- Sets one field of the node at a place to what a value decodes to. -/
def setField (f : NodeField) (i : Nat) (value : Json) (path : String) : InPlace Unit :=
  match f with
  | .position => do
    let p ← decode Position.decode value path
    change i fun n ↦ { n with position := p }
  | .param => do
    let m ← decode (Tree.optional (Tree.map Tree.freeForm)) value path
    change i fun n ↦ { n with param := m.getD ∅ }
  | .runtime => do
    let r ← decode (Tree.optional Tree.double) value path
    change i fun n ↦ { n with runtime := r }
  | .schemaOut => do
    let m ← decode (Tree.optional (Tree.map Tree.freeForm)) value path
    change i fun n ↦ { n with schemaOut := m }
  | .dataOut => do
    let m ← decode (Tree.optional decodeHandles) value path
    change i fun n ↦ { n with dataOut := m }
  | .fault => do
    let e ← decode (Tree.optional NodeFault.decode) value path
    change i fun n ↦ { n with fault := e }

/-- Binds or removes one entry of a map of the node at a place. -/
def setEntry (f : MapField) (i : Nat) (key : String) (value : Json) (path : String) :
    InPlace Unit :=
  match f with
  | .param =>
    if value.isNull then change i fun n ↦ { n with param := n.param.eraseSwap key }
    else change i fun n ↦ { n with param := n.param.insert key value }
  | .schemaOut =>
    if value.isNull then
      change i fun n ↦ { n with schemaOut := n.schemaOut.map fun m ↦ m.erase key }
    else do
      change i fun n ↦ { n with schemaOut := some (n.schemaOut.getD ∅) }
      change i fun n ↦ { n with schemaOut := n.schemaOut.map fun m ↦ m.insert key value }
  | .dataOut =>
    if value.isNull then change i fun n ↦ { n with dataOut := n.dataOut.map fun m ↦ m.erase key }
    else do
      let h ← decode Tree.string value path
      change i fun n ↦ { n with dataOut := some (n.dataOut.getD ∅) }
      change i fun n ↦ { n with dataOut := n.dataOut.map fun m ↦ m.insert key h }

end InPlace

namespace PatchOp

open InPlace

/-- Carries a patch out. -/
def perform (op : PatchOp) : InPlace Unit :=
  match PatchTarget.ofPath op.key with
  | .error e => throw e
  | .ok .workflowError => do
    let e ← InPlace.decode (Tree.optional Tree.string) op.value op.key.text
    modify fun p ↦ { p with workflow := { p.workflow with error := e } }
  | .ok (.node sel) => do
    let n' ← InPlace.decode Node.decode op.value op.key.text
    let (i, n) ← find sel
    if n'.id = n.id ∧ n'.kind = n.kind then change i fun _ ↦ n'
    else throw (.immutable op.key.text)
  | .ok (.field sel f) => do
    let (i, _) ← find sel
    setField f i op.value op.key.text
  | .ok (.entry sel f key) => do
    let (i, _) ← find sel
    setEntry f i key op.value op.key.text

/-- Carries patches out in order on one project, whatever a rejected one may have left there. -/
def performAll (p : Project) : List PatchOp → Project × List PatchFault
  | [] => (p, [])
  | op :: rest =>
    match op.perform.run p with
    | .ok _ p' => performAll p' rest
    | .error e p' =>
      let r := performAll p' rest
      (r.1, e :: r.2)

end PatchOp

end GraphSession
