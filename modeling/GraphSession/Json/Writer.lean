import GraphSession.Json.Basic

/-!
# Writing values

One value has one text: compact, without blanks, fields in their order. Strings escape the quote,
the backslash and the controls below the space, five of them by a letter and the others by four
lower-case hexadecimal digits; every other character stands for itself.
-/

namespace GraphSession.Json

/-- Four hexadecimal digits of a number below `2 ^ 16`. -/
def fourHex (n : Nat) : List Char :=
  [Nat.digitChar (n / 4096 % 16), Nat.digitChar (n / 256 % 16), Nat.digitChar (n / 16 % 16),
    Nat.digitChar (n % 16)]

/-- One character inside a string. -/
def writeChar (c : Char) : List Char :=
  if c = '\x22' then ['\\', '\x22']
  else if c = '\\' then ['\\', '\\']
  else if c = '\x08' then ['\\', 'b']
  else if c = '\t' then ['\\', 't']
  else if c = '\n' then ['\\', 'n']
  else if c = '\x0c' then ['\\', 'f']
  else if c = '\r' then ['\\', 'r']
  else if c.toNat < 0x20 then '\\' :: 'u' :: fourHex c.toNat
  else [c]

/-- A text between quotes, with its controls, quotes and backslashes escaped. -/
def writeString (s : String) : List Char :=
  '\x22' :: (s.toList.flatMap writeChar ++ ['\x22'])

/-- The decimal digits of an integer, after a minus sign if it is negative. -/
def writeInt (n : Int) : List Char :=
  if n < 0 then '-' :: Nat.toDigits 10 n.natAbs else Nat.toDigits 10 n.natAbs

mutual

/-- The text of a value. -/
def write : Json → List Char
  | .null => ['n', 'u', 'l', 'l']
  | .bool true => ['t', 'r', 'u', 'e']
  | .bool false => ['f', 'a', 'l', 's', 'e']
  | .int n => writeInt n
  | .float d => d.text
  | .str s => writeString s
  | .arr items => '[' :: writeItems items
  | .obj fields => '\x7b' :: writeFields fields

/-- The items of an array with its closing bracket. -/
def writeItems : List Json → List Char
  | [] => [']']
  | j :: rest => write j ++ writeMoreItems rest

/-- The items after the first one. -/
def writeMoreItems : List Json → List Char
  | [] => [']']
  | j :: rest => ',' :: (write j ++ writeMoreItems rest)

/-- The fields of an object with its closing brace. -/
def writeFields : List (String × Json) → List Char
  | [] => ['\x7d']
  | (k, j) :: rest => writeString k ++ ':' :: (write j ++ writeMoreFields rest)

/-- The fields after the first one. -/
def writeMoreFields : List (String × Json) → List Char
  | [] => ['\x7d']
  | (k, j) :: rest => ',' :: (writeString k ++ ':' :: (write j ++ writeMoreFields rest))

end

/-- The text of a value as a string. -/
def text (j : Json) : String := String.ofList j.write

end GraphSession.Json
