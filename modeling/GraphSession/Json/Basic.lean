import GraphSession.Number.Layout
import GraphSession.OrderedMap

/-!
# Free-form values

A `Json` value is what a parameter, a schema entry or a patch carries. Integers and floats are
different values and stay what they are, and the fields of an object keep their order.

Objects are plain lists of fields here; `ofMap` and `OrderedMap.ofList` pass between them and maps
with distinct keys. A float that is no number has no form on the wire, so `ofDouble` gives `null`
for it.
-/

namespace GraphSession

/-- A free-form value. -/
inductive Json where
  | null
  | bool (b : Bool)
  | int (n : Int)
  | float (d : Double)
  | str (s : String)
  | arr (items : List Json)
  | obj (fields : List (String × Json))
  deriving Inhabited

namespace Json

/-- A float as a value: finite numbers only, anything else is absent. -/
def ofDouble (d : Double) : Json := if d.isFinite then .float d else .null

/-- A natural number as an integer. -/
def ofNat (n : Nat) : Json := .int n

/-- A map of free-form values as an object, in its own order. -/
def ofMap (m : OrderedMap Json) : Json := .obj m.entries

/-- Texts as a list. -/
def ofStrings (ss : List String) : Json := .arr (ss.map .str)

/-- A value that may be missing, which is null then. -/
def ofOption {α : Type} (f : α → Json) : Option α → Json
  | none => .null
  | some a => f a

/-- A field that is left out when there is nothing to write. -/
def fieldIfSome {α : Type} (name : String) (f : α → Json) : Option α → List (String × Json)
  | none => []
  | some a => [(name, f a)]

/-- The first field of that name, in an object. -/
def field? (name : String) : Json → Option Json
  | .obj fields => fields.lookup name
  | _ => none

/-- Whether a value is null. -/
def isNull : Json → Bool
  | .null => true
  | _ => false

mutual

/-- How many arrays and objects lie inside one another. -/
def depth : Json → Nat
  | .arr items => depthOfItems items + 1
  | .obj fields => depthOfFields fields + 1
  | _ => 0

/-- How deep the deepest of some values is. -/
def depthOfItems : List Json → Nat
  | [] => 0
  | j :: rest => max (depth j) (depthOfItems rest)

/-- How deep the deepest of the values of some fields is. -/
def depthOfFields : List (String × Json) → Nat
  | [] => 0
  | (_, j) :: rest => max (depth j) (depthOfFields rest)

end

end Json

end GraphSession
