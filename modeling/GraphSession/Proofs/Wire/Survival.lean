import GraphSession.Proofs.Editor.Survival
import GraphSession.Proofs.Output.Survival

/-!
# What is sent arrives

Whatever value of a wire type is written is read as the same value (`WireType.survives`): with its
absent fields absent and its empty maps empty, its entries in their order, its strings and free-form
values to the last character. Two things are asked of the value. It is not nested deeper than a text
may be, and its leaves can be read on their own (`WireType.Durable`): integers are of 64 bits,
free-form objects have no name twice, and floats and times survive.
-/

namespace GraphSession

/-- The types that are written and read on their own. -/
inductive WireType where
  | project | summary | workflow | node | edge | fault | view | table | file | graph

namespace WireType

/-- The values of a type. -/
abbrev Value : WireType → Type
  | project => Project
  | summary => ProjectSummary
  | workflow => Workflow
  | node => Node
  | edge => Edge
  | fault => NodeFault
  | view => OutputView
  | table => Table
  | file => FileRef
  | graph => EditorGraph

/-- How a value of the type is written. -/
def encode : (T : WireType) → T.Value → Json
  | project => Project.encode
  | summary => ProjectSummary.encode
  | workflow => Workflow.encode
  | node => Node.encode
  | edge => Edge.encode
  | fault => NodeFault.encode
  | view => OutputView.encode
  | table => Table.encode
  | file => FileRef.encode
  | graph => EditorGraph.encode

/-- How a value of the type is read. -/
def decode : (T : WireType) → Decoder T.Value
  | project => Project.decode
  | summary => ProjectSummary.decode
  | workflow => Workflow.decode
  | node => Node.decode
  | edge => Edge.decode
  | fault => NodeFault.decode
  | view => OutputView.decode
  | table => Table.decode
  | file => FileRef.decode
  | graph => EditorGraph.decode

/-- The leaves of a value can be read on their own. -/
def Durable : (T : WireType) → T.Value → Prop
  | project => Project.Durable
  | summary => ProjectSummary.Durable
  | workflow => Workflow.Durable
  | node => Node.Durable
  | edge | fault => fun _ ↦ True
  | view => OutputView.Durable
  | table => Table.Durable
  | file => FileRef.Durable
  | graph => EditorGraph.Durable

/-- A durable value of any of the types is written as durable JSON. -/
theorem durable_encode (T : WireType) (v : T.Value) (h : T.Durable v) : (T.encode v).Durable := by
  cases T with
  | project => exact Project.durable_encode h
  | summary => exact ProjectSummary.durable_encode h
  | workflow => exact Workflow.durable_encode h
  | node => exact Node.durable_encode h
  | edge => exact Edge.durable_encode v
  | fault => exact NodeFault.durable_encode v
  | view => exact OutputView.durable_encode h
  | table => exact Table.durable_encode h
  | file => exact FileRef.durable_encode h
  | graph => exact EditorGraph.durable_encode h

/-- A durable value of any of the types is read back from what it was written as. -/
theorem recovers (T : WireType) (v : T.Value) (h : T.Durable v) : Recovers T.encode T.decode v := by
  cases T with
  | project => exact Project.recovers h
  | summary => exact ProjectSummary.recovers h
  | workflow => exact Workflow.recovers h
  | node => exact Node.recovers h.wellFormed
  | edge => exact Edge.recovers v
  | fault => exact NodeFault.recovers v
  | view => exact OutputView.recovers h
  | table => exact Table.recovers h
  | file => exact FileRef.recovers h
  | graph => exact EditorGraph.recovers h

/-- **What is written is read as it was,** whatever type it is of. -/
theorem survives (T : WireType) (v : T.Value) (h : T.Durable v)
    (hdepth : (T.encode v).depth ≤ Tree.depthLimit) : Survives T.encode T.decode v :=
  survives_of_recovers (recovers T v h) (durable_encode T v h) hdepth

/-! ### A small project -/

/-- One and a half. -/
def oneAndHalf : Double := ⟨0x3FF8000000000000⟩

/-- Small powers of ten are divided by at once. -/
theorem lower_of_le {f : Double} {places : Nat} (h : places ≤ Numeral.greatestPower) :
    Numeral.lower f places = f.quotient (Double.ofNat (Nat.pow 10 places)) := by
  rw [Numeral.lower, dif_pos h]

/-- A number with a fraction survives. -/
theorem survives_oneAndHalf : Survives Json.ofDouble Tree.double oneAndHalf := by
  have hread : Json.readNumeral oneAndHalf.text = some (⟨false, [1], some [5], none⟩, []) := by
    decide +kernel
  have hquotient : (Double.ofNat 15).quotient (Double.ofNat (Nat.pow 10 1)) = oneAndHalf := by
    decide +kernel
  have hdouble : Numeral.double? ⟨false, [1], some [5], none⟩ =
      some (Numeral.lower (Double.ofNat 15) 1) := rfl
  have hmeaning : Tree.ofNumeral ⟨false, [1], some [5], none⟩ = .float oneAndHalf := by
    rw [Tree.ofNumeral, hdouble, lower_of_le (by decide), hquotient]
    rfl
  exact Json.survives_double_iff.2 ⟨by decide, _, hread, hmeaning⟩

/-- A node with an escaped name, a value that is nested, an empty schema and a fault, and no
outputs. -/
def smallNode : Node where
  id := "a \"b\"\n"
  kind := .plotBar
  position := ⟨oneAndHalf, oneAndHalf⟩
  param := ⟨[("b", .arr [.int (-1), .float oneAndHalf, .obj []]), ("a", .str "\t")], by decide⟩
  runtime := some oneAndHalf
  schemaOut := some ∅
  dataOut := none
  fault := some (.validation (NameSet.ofList ["y", "x"]) [])

/-- A project with one node. -/
def smallProject : Project where
  id := -5
  name := "p"
  owner := 1
  updatedAt := ⟨18263, 11045, 0⟩
  thumbnail := none
  workflow := ⟨[smallNode], [], none⟩

theorem durable_smallNode : smallNode.Durable where
  position := ⟨survives_oneAndHalf, survives_oneAndHalf⟩
  param := by
    have hnested : Json.Durable (.arr [.int (-1), .float oneAndHalf, .obj []]) := by
      refine .arr ?_
      simp only [List.forall_mem_cons]
      exact ⟨.int ⟨by decide, by decide⟩, .float survives_oneAndHalf,
        .obj .nil (List.forall_mem_nil _), List.forall_mem_nil _⟩
    simp only [smallNode, List.forall_mem_cons]
    exact ⟨hnested, .str _, List.forall_mem_nil _⟩
  runtime := by
    rintro d ⟨⟩
    exact survives_oneAndHalf
  schemaOut := by
    rintro m ⟨⟩
    exact List.forall_mem_nil _

/-- The project can be written without loss. -/
theorem durable_smallProject : smallProject.Durable where
  id := ⟨by decide, by decide⟩
  owner := ⟨by decide, by decide⟩
  updatedAt := by
    have htime : Moment.ofText? smallProject.updatedAt.text = some smallProject.updatedAt := by
      decide +kernel
    refine Moment.survives_iff.2 ?_
    rw [Recovers, Moment.encode, Tree.ofJson, Moment.decode, htime]
  workflow := by
    simp only [Workflow.Durable, smallProject, List.forall_mem_cons]
    exact ⟨durable_smallNode, List.forall_mem_nil _⟩

/-- A project arrives that has a bit of everything. -/
theorem survives_smallProject :
    WireType.project.Durable smallProject ∧
      (WireType.project.encode smallProject).depth ≤ Tree.depthLimit ∧
      Survives WireType.project.encode WireType.project.decode smallProject := by
  have hdepth : (WireType.project.encode smallProject).depth ≤ Tree.depthLimit := by decide +kernel
  exact ⟨durable_smallProject, hdepth, survives .project smallProject durable_smallProject hdepth⟩

end WireType

end GraphSession
