import GraphSession.Json.Mismatch

/-!
# Decoding trees

A decoder takes a tree to a value of a type or to the first mismatch.

**Records.** A record is written as an object, or as an array of its fields in declaration order;
`Tree.record` brings both to a `Record`, the named parts in the order they come. Fields are then
asked for one by one, and their outcomes are combined in an applicative in which *the mismatch that
comes first in the text wins*, whatever the order of asking (`Gathered`). A missing field counts as
coming after everything that is there, and surplus elements of an array after that.

**Choices.** A choice without data is written as its name, or as an object with that one name and
`null`.
-/

namespace GraphSession

/-- A decoder of values of a type. -/
abbrev Decoder (α : Type) := Tree → Except Mismatch α

namespace Tree

/-- Whatever there is, as a free-form value. -/
def freeForm : Decoder Json := fun t ↦
  match t.toJson? with
  | some j => .ok j
  | none => .error .unusable

/-- A text. -/
def string : Decoder String
  | .str s => .ok s
  | t => .error (.wrongType t "a string")

/-- A truth value. -/
def flag : Decoder Bool
  | .bool b => .ok b
  | t => .error (.wrongType t "a boolean")

/-- A float field takes an integer too. -/
def double : Decoder Double
  | .float d => .ok d
  | .int n => .ok (Double.ofInt n)
  | t => .error (.wrongType t "f64")

/-- The least and the greatest signed integer of 64 bits. -/
def int64Range : Int × Int := (.negSucc (Nat.pow 2 63 - 1), .ofNat (Nat.pow 2 63 - 1))

/-- A signed integer of 64 bits; a float is none, whatever its value. -/
def int64 : Decoder Int
  | .int n =>
    if int64Range.1 ≤ n ∧ n ≤ int64Range.2 then .ok n else .error (.wrongValue (.int n) "i64")
  | t => .error (.wrongType t "i64")

/-- An unsigned integer of 64 bits. -/
def nat64 : Decoder Nat
  | .int n =>
    if 0 ≤ n ∧ n.toNat < Nat.pow 2 64 then .ok n.toNat else .error (.wrongValue (.int n) "u64")
  | t => .error (.wrongType t "u64")

/-- Nothing, written as `null`. -/
def optional {α : Type} (f : Decoder α) : Decoder (Option α)
  | .null => .ok none
  | t => (f t).map some

/-- Every item in order. -/
def items {α : Type} (f : Decoder α) : List Tree → Except Mismatch (List α)
  | [] => .ok []
  | t :: rest =>
    match f t with
    | .error e => .error e
    | .ok a => (items f rest).map (a :: ·)

/-- A list whose elements are decoded one by one; the first that fails decides. -/
def list {α : Type} (f : Decoder α) : Decoder (List α)
  | .arr ts => items f ts
  | t => .error (.wrongType t "a sequence")

/-- Every field in order. -/
def namedItems {α : Type} (f : Decoder α) :
    List (String × Tree) → Except Mismatch (List (String × α))
  | [] => .ok []
  | (k, t) :: rest =>
    match f t with
    | .error e => .error e
    | .ok a => (namedItems f rest).map ((k, a) :: ·)

/-- A map by name. Of equal names the last value is kept, at the place of the first. -/
def map {α : Type} (f : Decoder α) : Decoder (OrderedMap α)
  | .obj fields => (namedItems f fields).map OrderedMap.ofList
  | t => .error (.wrongType t "a map")

/-- The name of a choice without data. -/
def choiceName : Decoder (String × Tree)
  | .str s => .ok (s, .null)
  | .obj [(k, t)] => .ok (k, t)
  | .obj fields => .error (.wrongValue (.obj fields) "map with a single key")
  | t => .error (.wrongType t "string or map")

/-- A choice without data, by its name. -/
def choice {α : Type} (ofName? : String → Option α) (known : List String) : Decoder α := fun t ↦
  match choiceName t with
  | .error e => .error e
  | .ok (name, payload) =>
    match ofName? name, payload with
    | none, _ => .error (.unknownVariant name known)
    | some a, .null => .ok a
    | some _, t => .error (.wrongType t "unit")

end Tree

/-- The named parts of a record, in the order they come. -/
structure Record where
  /-- What the record is called in a message. -/
  label : String
  /-- How many fields it has. -/
  arity : Nat
  parts : List (String × Tree)
  /-- Whether it was written as an array. -/
  positional : Bool
  /-- How many elements of an array have no field. -/
  surplus : Nat
  /-- What a message about surplus elements expects. -/
  surplusText : String

/-- The outcome of asking for fields: a value, or the mismatch that comes first, with its place. -/
inductive Gathered (α : Type) where
  | value (a : α)
  | fault (place : Nat) (cause : Mismatch)

namespace Gathered

/-- Both outcomes; of two faults the earlier one is kept. -/
def both {α β : Type} (f : Gathered (α → β)) (x : Gathered α) : Gathered β :=
  match f, x with
  | .value f, .value a => .value (f a)
  | .fault p e, .value _ => .fault p e
  | .value _, .fault p e => .fault p e
  | .fault p e, .fault q d => if q < p then .fault q d else .fault p e

/-- Fields are gathered from left to right, and the first complaint is kept. -/
instance : Applicative Gathered where
  pure := .value
  seq f x := both f (x ())

end Gathered

namespace Record

/-- The first part of that name, with its place. -/
def find? (name : String) (place : Nat) : List (String × Tree) → Option (Nat × Tree)
  | [] => none
  | (k, t) :: rest => if k = name then some (place, t) else find? name (place + 1) rest

/-- What it means that a field is not there. -/
def missing (r : Record) (name : String) : Mismatch :=
  if r.positional then
    .wrongLength r.parts.length
      (r.label ++ " with " ++ String.ofList (Nat.toDigits 10 r.arity) ++
        (if r.arity = 1 then " element" else " elements"))
  else .missingField name

/-- A field, with what stands for it when it is not there. -/
def fieldOr {α : Type} (r : Record) (name : String) (f : Decoder α) (absent : Gathered α) :
    Gathered α :=
  match find? name 0 r.parts with
  | none => absent
  | some (place, t) =>
    match f t with
    | .ok a => .value a
    | .error e => .fault place e

/-- A field that has to be there. -/
def required {α : Type} (r : Record) (name : String) (f : Decoder α) : Gathered α :=
  r.fieldOr name f (.fault r.parts.length (r.missing name))

/-- A field with a value for when it is not there. -/
def withDefault {α : Type} (r : Record) (name : String) (f : Decoder α) (default : α) :
    Gathered α :=
  r.fieldOr name f (.value default)

/-- A field that may be absent or `null`. -/
def optional {α : Type} (r : Record) (name : String) (f : Decoder α) : Gathered (Option α) :=
  r.withDefault name (Tree.optional f) none

/-- A field that may be `null`, and may be absent from an object but not from an array. -/
def nullable {α : Type} (r : Record) (name : String) (f : Decoder α) : Gathered (Option α) :=
  if r.positional then r.required name (Tree.optional f) else r.optional name f

/-- The record, once all fields are there and nothing is left over. -/
def finish {α : Type} (r : Record) : Gathered α → Except Mismatch α
  | .fault _ e => .error e
  | .value a =>
    if r.surplus = 0 then .ok a
    else .error (.wrongLength (r.parts.length + r.surplus) r.surplusText)

/-- The first of the names that occurs twice. -/
def repeated? (names : List String) (parts : List (String × Tree)) : Option String :=
  names.find? fun n ↦ 1 < (parts.filter fun p ↦ p.1 = n).length

/-- The parts of an object; unknown names stay and are never asked for. -/
def ofFields (label : String) (names : List String) (fields : List (String × Tree)) :
    Except Mismatch Record :=
  match repeated? names fields with
  | some n => .error (.duplicateField n)
  | none => .ok ⟨label, names.length, fields, false, 0, ""⟩

/-- The parts of an array, by position. -/
def ofItems (label : String) (names : List String) (items : List Tree) (surplusText : String) :
    Record :=
  ⟨label, names.length, names.zip items, true, items.length - names.length, surplusText⟩

end Record

/-- The parts of a record with the given fields. -/
def Tree.record (label : String) (names : List String) : Tree → Except Mismatch Record
  | .obj fields => Record.ofFields label names fields
  | .arr items => .ok (Record.ofItems label names items "fewer elements in array")
  | t => .error (.wrongType t label)

end GraphSession
