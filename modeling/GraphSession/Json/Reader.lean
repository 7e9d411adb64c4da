import GraphSession.Json.Tree
import GraphSession.Number.Numeral
import GraphSession.Text.Hexadecimal

/-!
# Reading texts

The grammar is that of JSON, strictly: one value, blanks around its parts, nothing after it.
`Tree.ofText?` is none exactly when the text is not of that form.

**Three limits are not errors of the text.** Nesting beyond `depthLimit`, numbers beyond the finite
ones and unpaired surrogates leave an `unusable` tree; see `GraphSession.Json.Tree`.

**Recursion is by fuel** on the depth of calls, and a text of `n` characters never needs more than
`2 * n + 2`: between two calls at least every second one has taken a character.
-/

namespace GraphSession

namespace Json

/-- The blanks between the parts of a text. -/
def isGap (c : Char) : Bool := c = ' ' || c = '\t' || c = '\n' || c = '\r'

/-- The text after the blanks that it begins with. -/
def skipGap (cs : List Char) : List Char := cs.dropWhile isGap

/-- The character of an escape by one letter. -/
def letterEscape? (c : Char) : Option Char :=
  if c = '\x22' ∨ c = '\\' ∨ c = '/' then some c
  else if c = 'b' then some '\x08'
  else if c = 'f' then some '\x0c'
  else if c = 'n' then some '\n'
  else if c = 'r' then some '\r'
  else if c = 't' then some '\t'
  else none

/-- The code units of a string up to its closing quote, with the text after it. A character stands
for its code point, an escape by number for the unit it names. -/
def readUnits : List Char → Option (List Nat × List Char)
  | [] => none
  | '\x22' :: rest => some ([], rest)
  | '\\' :: 'u' :: a :: b :: c :: d :: rest =>
    match Hexadecimal.value? a, Hexadecimal.value? b, Hexadecimal.value? c,
        Hexadecimal.value? d with
    | some a, some b, some c, some d =>
      (readUnits rest).map fun r ↦
        ((a * 4096 + b * 256 + c * 16 + d) :: r.1, r.2)
    | _, _, _, _ => none
  | '\\' :: e :: rest =>
    match letterEscape? e with
    | some c => (readUnits rest).map fun r ↦ (c.toNat :: r.1, r.2)
    | none => none
  | c :: rest =>
    if c.toNat < 0x20 ∨ c = '\\' then none
    else (readUnits rest).map fun r ↦ (c.toNat :: r.1, r.2)

/-- Whether a unit is the first half of a pair. -/
def isHighSurrogate (n : Nat) : Bool := 0xD800 ≤ n && n ≤ 0xDBFF

/-- Whether a unit is the second half of a pair. -/
def isLowSurrogate (n : Nat) : Bool := 0xDC00 ≤ n && n ≤ 0xDFFF

/-- The characters of code units; none when a surrogate stands alone. -/
def charsOfUnits : List Nat → Option (List Char)
  | [] => some []
  | [n] => if isHighSurrogate n || isLowSurrogate n then none else some [Char.ofNat n]
  | m :: n :: rest =>
    if isHighSurrogate m then
      if isLowSurrogate n then
        (charsOfUnits rest).map
          (Char.ofNat (0x10000 + (m - 0xD800) * 0x400 + (n - 0xDC00)) :: ·)
      else none
    else if isLowSurrogate m then none
    else (charsOfUnits (n :: rest)).map (Char.ofNat m :: ·)

/-- A string after its opening quote: its characters, if they are characters, and the rest. -/
def readString (cs : List Char) : Option (Option String × List Char) :=
  (readUnits cs).map fun r ↦ ((charsOfUnits r.1).map String.ofList, r.2)

/-- The values of leading decimal digits, with the rest. -/
def readDigits (cs : List Char) : List Nat × List Char :=
  ((cs.takeWhile Char.isDigit).map fun c ↦ c.toNat - 48, cs.dropWhile Char.isDigit)

/-- The digits before the point: a zero stands alone. -/
def readWhole (cs : List Char) : Option (List Nat × List Char) :=
  match readDigits cs with
  | ([], _) => none
  | (0 :: _ :: _, _) => none
  | r => some r

/-- A point must be followed by a digit. -/
def readFraction (cs : List Char) : Option (Option (List Nat) × List Char) :=
  match cs with
  | '.' :: rest =>
    match readDigits rest with
    | ([], _) => none
    | (ds, rest) => some (some ds, rest)
  | _ => some (none, cs)

/-- The digits of an exponent, at least one. -/
def readExponentDigits (negative : Bool) (cs : List Char) : Option (Option Int × List Char) :=
  match readDigits cs with
  | ([], _) => none
  | (ds, rest) =>
    let n : Int := Numeral.naturalOf ds
    some (some (if negative then -n else n), rest)

/-- The exponent of a numeral, if it has one: a letter, perhaps a sign, and digits. -/
def readExponent (cs : List Char) : Option (Option Int × List Char) :=
  match cs with
  | c :: rest =>
    if c = 'e' ∨ c = 'E' then
      match rest with
      | '+' :: rest => readExponentDigits false rest
      | '-' :: rest => readExponentDigits true rest
      | _ => readExponentDigits false rest
    else some (none, cs)
  | [] => some (none, cs)

/-- A number, without its sign. -/
def readUnsigned (negative : Bool) (cs : List Char) : Option (Numeral × List Char) := do
  let (whole, cs) ← readWhole cs
  let (fraction, cs) ← readFraction cs
  let (exponent, cs) ← readExponent cs
  pure (⟨negative, whole, fraction, exponent⟩, cs)

/-- The numeral that a text begins with, and what follows it. -/
def readNumeral (cs : List Char) : Option (Numeral × List Char) :=
  match cs with
  | '-' :: rest => readUnsigned true rest
  | _ => readUnsigned false cs

end Json

namespace Tree

/-- How many arrays and objects may lie inside one another. -/
def depthLimit : Nat := 127

/-- What a numeral means: an integer if it spells one, else a float. -/
def ofNumeral (n : Numeral) : Tree :=
  match n.integer?, n.double? with
  | some i, _ => .int i
  | none, some d => .float d
  | none, none => .unusable

/-- A text that could be read as one, or a value that nothing can use. -/
def ofString? : Option String → Tree
  | some s => .str s
  | none => .unusable

/-- An array under `depth` others. -/
def arrayAt (depth : Nat) (items : List Tree) : Tree :=
  if depth < depthLimit ∧ !items.any isUnusable then .arr items else .unusable

/-- The fields of an object, unless a name is unusable. -/
def namedFields? : List (Option String × Tree) → Option (List (String × Tree))
  | [] => some []
  | (some k, t) :: rest => (namedFields? rest).map ((k, t) :: ·)
  | (none, _) :: _ => none

/-- An object under `depth` others. -/
def objectAt (depth : Nat) (fields : List (Option String × Tree)) : Tree :=
  match namedFields? fields with
  | some fields => if depth < depthLimit then .obj fields else .unusable
  | none => .unusable

mutual

/-- One value and the text after it. -/
def readValue : Nat → Nat → List Char → Option (Tree × List Char)
  | 0, _, _ => none
  | fuel + 1, depth, cs =>
    match Json.skipGap cs with
    | 'n' :: 'u' :: 'l' :: 'l' :: rest => some (.null, rest)
    | 't' :: 'r' :: 'u' :: 'e' :: rest => some (.bool true, rest)
    | 'f' :: 'a' :: 'l' :: 's' :: 'e' :: rest => some (.bool false, rest)
    | '\x22' :: rest => (Json.readString rest).map fun r ↦ (ofString? r.1, r.2)
    | '[' :: rest =>
      match Json.skipGap rest with
      | ']' :: rest => some (arrayAt depth [], rest)
      | _ => (readItems fuel (depth + 1) rest).map fun r ↦ (arrayAt depth r.1, r.2)
    | '\x7b' :: rest =>
      match Json.skipGap rest with
      | '\x7d' :: rest => some (objectAt depth [], rest)
      | _ => (readFields fuel (depth + 1) rest).map fun r ↦ (objectAt depth r.1, r.2)
    | cs => (Json.readNumeral cs).map fun r ↦ (ofNumeral r.1, r.2)

/-- The items of an array, at least one, through the closing bracket. -/
def readItems : Nat → Nat → List Char → Option (List Tree × List Char)
  | 0, _, _ => none
  | fuel + 1, depth, cs =>
    match readValue fuel depth cs with
    | none => none
    | some (t, rest) =>
      match Json.skipGap rest with
      | ',' :: rest => (readItems fuel depth rest).map fun r ↦ (t :: r.1, r.2)
      | ']' :: rest => some ([t], rest)
      | _ => none

/-- The fields of an object, at least one, through the closing brace. -/
def readFields : Nat → Nat → List Char → Option (List (Option String × Tree) × List Char)
  | 0, _, _ => none
  | fuel + 1, depth, cs =>
    match Json.skipGap cs with
    | '\x22' :: rest =>
      match Json.readString rest with
      | none => none
      | some (name, rest) =>
        match Json.skipGap rest with
        | ':' :: rest =>
          match readValue fuel depth rest with
          | none => none
          | some (t, rest) =>
            match Json.skipGap rest with
            | ',' :: rest => (readFields fuel depth rest).map fun r ↦ ((name, t) :: r.1, r.2)
            | '\x7d' :: rest => some ([(name, t)], rest)
            | _ => none
        | _ => none
    | _ => none

end

/-- The tree of a whole text. -/
def ofChars? (cs : List Char) : Option Tree :=
  match readValue (2 * cs.length + 2) 0 cs with
  | some (t, rest) => if Json.skipGap rest = [] then some t else none
  | none => none

/-- The tree of a text, which has to hold one value and blanks around it. -/
def ofText? (s : String) : Option Tree := ofChars? s.toList

end Tree

/-- The free-form value of a whole text. -/
def Json.ofText? (s : String) : Option Json := (Tree.ofText? s).bind Tree.toJson?

end GraphSession
