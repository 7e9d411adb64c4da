import GraphSession.Json.Tree
import GraphSession.Json.Writer
import GraphSession.Text.Quoted

/-!
# Why a tree is not of a type

A `Mismatch` is one cause for which a tree does not decode, with the data that its message names.
The wording is in `message` alone.
-/

namespace GraphSession

/-- A cause for which a tree does not decode as a type. -/
inductive Mismatch where
  /-- The tree is of another shape than the one expected. -/
  | wrongType (found : Tree) (expected : String)
  /-- The shape is right and the value is not. -/
  | wrongValue (found : Tree) (expected : String)
  | unknownVariant (name : String) (known : List String)
  | missingField (name : String)
  | duplicateField (name : String)
  /-- A record written as an array with too few or too many elements. -/
  | wrongLength (found : Nat) (expected : String)
  /-- None of the alternatives of a union without tags fits. -/
  | noAlternative (union : String)
  /-- A string that is no time. -/
  | badTime (text : String)
  /-- A part of the text that has no value. -/
  | unusable
  deriving Inhabited

namespace Tree

/-- How a tree is named in a message. -/
def describe : Tree → String
  | .null => "null"
  | .bool b => "boolean `" ++ (if b then "true" else "false") ++ "`"
  | .int n => "integer `" ++ String.ofList (Json.writeInt n) ++ "`"
  | .float d => "floating point `" ++ String.ofList d.text ++ "`"
  | .str s => "string " ++ Text.quoted s
  | .arr _ => "sequence"
  | .obj _ => "map"
  | .unusable => "unusable text"

end Tree

namespace Mismatch

/-- Names between back quotes, separated by commas. -/
def listed (names : List String) : String :=
  ", ".intercalate (names.map fun n ↦ "`" ++ n ++ "`")

/-- The alternatives in words, by how many there are. -/
def oneOf : List String → String
  | [] => "there are no variants"
  | [a] => "expected `" ++ a ++ "`"
  | [a, b] => "expected `" ++ a ++ "` or `" ++ b ++ "`"
  | names => "expected one of " ++ listed names

/-- What is said about a value that does not fit: what it is, and what was expected of it. -/
def message : Mismatch → String
  | .wrongType t expected => "invalid type: " ++ t.describe ++ ", expected " ++ expected
  | .wrongValue t expected => "invalid value: " ++ t.describe ++ ", expected " ++ expected
  | .unknownVariant name known => "unknown variant `" ++ name ++ "`, " ++ oneOf known
  | .missingField name => "missing field `" ++ name ++ "`"
  | .duplicateField name => "duplicate field `" ++ name ++ "`"
  | .wrongLength n expected =>
    "invalid length " ++ String.ofList (Nat.toDigits 10 n) ++ ", expected " ++ expected
  | .noAlternative union => "data did not match any variant of untagged enum " ++ union
  | .badTime text => "not a time: " ++ text
  | .unusable => "unusable text"

end Mismatch

end GraphSession
