import GraphSession.Calendar.Moment
import GraphSession.Json.Basic
import GraphSession.NameSet

/-!
# Projects

A project is what a session submits: some identity, the time of its last update, and a workflow, the
node graph with what the last run left in it. The kind of a node and its id never change; position,
parameters and results do.

The maps of a node keep their order (`OrderedMap`), the ports of a validation fault are a set
(`NameSet`).
-/

namespace GraphSession

/-- What a node computes. -/
inductive NodeKind where
  | constInt | constFloat | constStr | constBool
  | tableFromFile | tableFilter | tableSelect | tableJoin | tableAggregate | tableSort
  | plotLine | plotBar | plotScatter
  deriving DecidableEq, Inhabited

namespace NodeKind

/-- All kinds of nodes, in the order in which they are offered. -/
def all : List NodeKind :=
  [constInt, constFloat, constStr, constBool, tableFromFile, tableFilter, tableSelect, tableJoin,
    tableAggregate, tableSort, plotLine, plotBar, plotScatter]

/-- What a kind is called in documents. -/
def name : NodeKind → String
  | constInt => "const_int"
  | constFloat => "const_float"
  | constStr => "const_str"
  | constBool => "const_bool"
  | tableFromFile => "table_from_file"
  | tableFilter => "table_filter"
  | tableSelect => "table_select"
  | tableJoin => "table_join"
  | tableAggregate => "table_aggregate"
  | tableSort => "table_sort"
  | plotLine => "plot_line"
  | plotBar => "plot_bar"
  | plotScatter => "plot_scatter"

/-- The kind of a name, if there is one. -/
def ofName? (s : String) : Option NodeKind := all.find? fun k ↦ k.name = s

/-- Every kind is found under its own name, so no two kinds share one. -/
theorem ofName?_name (k : NodeKind) : ofName? k.name = some k := by
  cases k <;> decide

end NodeKind

/-- A place on the canvas. -/
structure Position where
  x : Double
  y : Double
  deriving DecidableEq

/-- A handle to an output that the backend has stored. -/
abbrev DataHandle := String

/-- What went wrong at a node in the last run. -/
inductive NodeFault where
  /-- Inputs are missing or of the wrong type. -/
  | validation (ports : NameSet) (messages : List String)
  /-- Parameters are invalid. -/
  | parameter (messages : List String)
  /-- The computation failed. -/
  | execution (messages : List String)
  deriving DecidableEq

namespace NodeFault

/-- What a fault says, whichever kind of fault it is. -/
def messages : NodeFault → List String
  | .validation _ ms => ms
  | .parameter ms => ms
  | .execution ms => ms

/-- The offending ports, of a validation fault. -/
def ports? : NodeFault → Option NameSet
  | .validation ps _ => some ps
  | _ => none

end NodeFault

/-- A node of a workflow. -/
structure Node where
  id : String
  kind : NodeKind
  position : Position
  /-- Parameters, by name. -/
  param : OrderedMap Json
  /-- How long the last run took, in seconds. -/
  runtime : Option Double
  /-- The type of each output port. -/
  schemaOut : Option (OrderedMap Json)
  /-- The stored output of each port. -/
  dataOut : Option (OrderedMap DataHandle)
  fault : Option NodeFault

/-- A connection from an output port to an input port. -/
structure Edge where
  id : String
  source : String
  sourcePort : String
  target : String
  targetPort : String
  deriving DecidableEq

/-- The node graph of a project. -/
structure Workflow where
  nodes : List Node
  edges : List Edge
  /-- What was wrong with the graph as a whole in the last run. -/
  error : Option String

namespace Workflow

/-- A workflow with nothing in it. -/
def empty : Workflow := ⟨[], [], none⟩

end Workflow

/-- A project. -/
structure Project where
  id : Int
  name : String
  owner : Int
  updatedAt : Moment
  /-- An image of the graph, as a data URL. -/
  thumbnail : Option String
  workflow : Workflow

/-- A project as it appears in a listing. -/
structure ProjectSummary where
  id : Int
  name : String
  updatedAt : Moment
  thumbnail : Option String

/-- Every data handle that some node has as an output. -/
def dataHandles (outputs : List (Option (OrderedMap DataHandle))) : NameSet :=
  NameSet.ofList (outputs.flatMap fun o ↦ (o.map OrderedMap.values).getD [])

namespace Project

/-- The first node with that id. -/
def node? (p : Project) (id : String) : Option Node := p.workflow.nodes.find? fun n ↦ n.id = id

/-- The data handles that some node refers to. -/
def dataHandles (p : Project) : NameSet :=
  GraphSession.dataHandles (p.workflow.nodes.map Node.dataOut)

end Project

/-- Changes the first element that satisfies a condition. -/
def modifyFirst {α : Type} (p : α → Bool) (f : α → α) : List α → List α
  | [] => []
  | a :: rest => if p a then f a :: rest else a :: modifyFirst p f rest

/-- Changes the first node with that id. -/
def Project.modifyNode (p : Project) (id : String) (f : Node → Node) : Project :=
  { p with workflow :=
    { p.workflow with nodes := modifyFirst (fun n ↦ n.id = id) f p.workflow.nodes } }

end GraphSession
