import GraphSession.Json.Basic

/-!
# What a text turned out to hold

Reading a text gives a `Tree`, one step short of a value. Two things separate the two.

**Fields may repeat.** A typed record refuses a repeated field, a free-form map lets the last one
win; which of the two applies is known only once a type asks.

**Some parts cannot be used.** A number beyond the finite ones, a string with half a surrogate pair
and anything nested too deeply have a place in the text but no value. They are `unusable`: harmless
in a field that nobody asks for, and an error as soon as someone does. An array with such a part is
unusable as a whole, since every item of an array is asked for.

`ofJson` and `toJson?` pass between trees and values.
-/

namespace GraphSession

/-- The content of a text, before a type has asked for it. -/
inductive Tree where
  | null
  | bool (b : Bool)
  | int (n : Int)
  | float (d : Double)
  | str (s : String)
  | arr (items : List Tree)
  | obj (fields : List (String × Tree))
  | unusable
  deriving Inhabited

namespace Tree

mutual

/-- The tree of a value, whose numbers are what they are read as. -/
def ofJson : Json → Tree
  | .null => .null
  | .bool b => .bool b
  | .int n => .int n
  | .float d => .float d
  | .str s => .str s
  | .arr items => .arr (ofItems items)
  | .obj fields => .obj (ofFields fields)

/-- The trees of some values, in order. -/
def ofItems : List Json → List Tree
  | [] => []
  | j :: rest => ofJson j :: ofItems rest

/-- The trees of the values of some fields, under the same names. -/
def ofFields : List (String × Json) → List (String × Tree)
  | [] => []
  | (k, j) :: rest => (k, ofJson j) :: ofFields rest

end

mutual

/-- The value of a tree: repeated fields are merged, and no part may be unusable. -/
def toJson? : Tree → Option Json
  | .null => some .null
  | .bool b => some (.bool b)
  | .int n => some (.int n)
  | .float d => some (.float d)
  | .str s => some (.str s)
  | .arr items => (itemsToJson? items).map .arr
  | .obj fields => (fieldsToJson? fields).map fun fs ↦ .ofMap (OrderedMap.ofList fs)
  | .unusable => none

/-- The values of some trees, if each of them has one. -/
def itemsToJson? : List Tree → Option (List Json)
  | [] => some []
  | t :: rest =>
    match toJson? t, itemsToJson? rest with
    | some j, some js => some (j :: js)
    | _, _ => none

/-- The fields with the values of their trees, if each of them has one. -/
def fieldsToJson? : List (String × Tree) → Option (List (String × Json))
  | [] => some []
  | (k, t) :: rest =>
    match toJson? t, fieldsToJson? rest with
    | some j, some js => some ((k, j) :: js)
    | _, _ => none

end

/-- Whether every part can be used. -/
def usable (t : Tree) : Bool := t.toJson?.isSome

/-- Whether a tree stands for a text or a number that nothing can use. -/
def isUnusable : Tree → Bool
  | .unusable => true
  | _ => false

end Tree

end GraphSession
