import GraphSession.Project.Basic

/-!
# When projects are equal

Two projects are compared by what they say (`Project.same`), and that differs from being the same
value in two ways.

**Maps are sets of entries.** They are equal if they have the same names with equal values, in any
order. This holds of the maps of a node and of every object inside a free-form value.

**Floats are numbers.** The two zeros are equal. A float that is no number is equal to nothing, so a
project that holds one is not even equal to itself.
-/

namespace GraphSession

/-- Both hold nothing, or both hold equal things. -/
def sameOption {α : Type} (same : α → α → Bool) : Option α → Option α → Bool
  | none, none => true
  | some a, some b => same a b
  | _, _ => false

/-- As many entries, and each is found with an equal value. -/
def OrderedMap.same {α : Type} (same : α → α → Bool) (m m' : OrderedMap α) : Bool :=
  m.entries.length == m'.entries.length &&
    m.entries.all fun e ↦ match m'.get? e.1 with
      | some b => same e.2 b
      | none => false

namespace Json

mutual

/-- An integer is no float, whatever its value. -/
def same : Json → Json → Bool
  | .null, .null => true
  | .bool a, .bool b => a == b
  | .int a, .int b => a == b
  | .float a, .float b => a.same b
  | .str a, .str b => a == b
  | .arr a, .arr b => sameItems a b
  | .obj a, .obj b => a.length == b.length && sameFields a b
  | _, _ => false

/-- Two lists are equal if they are equal place by place. -/
def sameItems : List Json → List Json → Bool
  | [], [] => true
  | a :: rest, b :: others => same a b && sameItems rest others
  | _, _ => false

/-- Each field is found among the others with an equal value. -/
def sameFields : List (String × Json) → List (String × Json) → Bool
  | [], _ => true
  | (k, a) :: rest, others =>
    (match others.lookup k with
      | some b => same a b
      | none => false) && sameFields rest others

end

end Json

/-- Both coordinates are equal as numbers. -/
def Position.same (a b : Position) : Bool := a.x.same b.x && a.y.same b.y

/-- Two nodes are equal field by field, with maps as sets of entries and floats as numbers. -/
def Node.same (a b : Node) : Bool :=
  a.id == b.id && a.kind == b.kind && a.position.same b.position &&
    a.param.same Json.same b.param &&
    sameOption Double.same a.runtime b.runtime &&
    sameOption (OrderedMap.same Json.same) a.schemaOut b.schemaOut &&
    sameOption (OrderedMap.same fun h h' ↦ h == h') a.dataOut b.dataOut &&
    a.fault == b.fault

/-- The nodes are equal in order, and the rest is the same. -/
def Workflow.same (a b : Workflow) : Bool :=
  a.nodes.isEqv b.nodes Node.same && a.edges == b.edges && a.error == b.error

/-- The workflows are equal, and the rest is the same. -/
def Project.same (a b : Project) : Bool :=
  a.id == b.id && a.name == b.name && a.owner == b.owner && a.updatedAt == b.updatedAt &&
    a.thumbnail == b.thumbnail && a.workflow.same b.workflow

end GraphSession
