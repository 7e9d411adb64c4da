import GraphSession.Toml.Scalar

/-!
# Reading configuration documents

A document is a sequence of lines, each blank, a comment, a binding or a header. Values may span
lines inside brackets and braces and in texts of several lines, and nowhere else. A mark of the byte
order at the beginning is passed over.

**Recursion is by fuel**, of which the length of the text is enough: every call takes a character
before the next one.
-/

namespace GraphSession.Toml

/-- The text after the spaces that it begins with. -/
def skipSpace (cs : List Char) : List Char := cs.dropWhile isSpace

/-- Goes on to the next character that is neither blank nor in a comment. None when a comment holds
a control or a line does not break well. -/
def skipGaps (inComment : Bool) : List Char → Option (List Char)
  | [] => some []
  | c :: rest =>
    if c = '\n' then skipGaps false rest
    else if c = '\r' then if rest.head? = some '\n' then skipGaps false rest else none
    else if inComment then if isPlain c then skipGaps true rest else none
    else if isSpace c then skipGaps false rest
    else if c = '#' then skipGaps true rest
    else some (c :: rest)

/-- Goes to the end of a line that says nothing more. -/
def endLine (inComment : Bool) : List Char → Option (List Char)
  | [] => some []
  | c :: rest =>
    if c = '\n' then some rest
    else if c = '\r' then if rest.head? = some '\n' then some (rest.drop 1) else none
    else if inComment then if isPlain c then endLine true rest else none
    else if isSpace c then endLine false rest
    else if c = '#' then endLine true rest
    else none

/-- Whether a character may stand in a bare key. -/
def isKeyChar (c : Char) : Bool := c.isAlphanum || c = '_' || c = '-'

/-- One name of a key: bare, or a text on one line. -/
def readName (cs : List Char) : Option (String × List Char) :=
  match cs with
  | '\x22' :: rest => (readEscaped false rest).map fun r ↦ (String.ofList r.1, r.2)
  | '\'' :: rest => (readRaw false rest).map fun r ↦ (String.ofList r.1, r.2)
  | _ =>
    match cs.span isKeyChar with
    | ([], _) => none
    | (name, rest) => some (String.ofList name, rest)

/-- A key: names with dots between them. -/
def readKey : Nat → List Char → Option (List String × List Char)
  | 0, _ => none
  | fuel + 1, cs =>
    match readName (skipSpace cs) with
    | none => none
    | some (name, rest) =>
      match skipSpace rest with
      | '.' :: rest => (readKey fuel rest).map fun r ↦ (name :: r.1, r.2)
      | rest => some ([name], rest)

/-- Whether a character may stand in a value that is no text, list or table. -/
def isScalarChar (c : Char) : Bool :=
  c.isAlphanum || c = '_' || c = '-' || c = '+' || c = '.' || c = ':'

/-- The characters of a plain value. A date may be followed by a blank and a time. -/
def spanScalar (cs : List Char) : List Char × List Char :=
  match cs.span isScalarChar with
  | (day, ' ' :: c :: rest) =>
    if isDate day ∧ c.isDigit then
      match (c :: rest).span isScalarChar with
      | (time, rest) => (day ++ ' ' :: time, rest)
    else (day, ' ' :: c :: rest)
  | r => r

/-- A value that is no text, list or table, and what follows it. -/
def readScalar (cs : List Char) : Option (TomlValue × List Char) :=
  let r := spanScalar cs
  (scalar? r.1).map fun v ↦ (v, r.2)

/-- How deep arrays and inline tables may lie inside one another. -/
def depthLimit : Nat := 80

mutual

/-- A value. -/
def readValue : Nat → Nat → List Char → Option (TomlValue × List Char)
  | 0, _, _ => none
  | fuel + 1, depth, cs =>
    match readText? cs with
    | some r => r.map fun r ↦ (.text (String.ofList r.1), r.2)
    | none =>
      match cs with
      | '[' :: rest =>
        if depth < depthLimit then
          (readItems fuel (depth + 1) rest).map fun r ↦ (.array r.1, r.2)
        else none
      | '\x7b' :: rest =>
        if depth < depthLimit then
          match readBindings fuel (depth + 1) rest with
          | none => none
          | some (bindings, rest) =>
            (TomlTable.ofBindings? bindings).map fun t ↦ (.table .inline t, rest)
        else none
      | _ => readScalar cs

/-- The items of an array through its closing bracket. -/
def readItems : Nat → Nat → List Char → Option (List TomlValue × List Char)
  | 0, _, _ => none
  | fuel + 1, depth, cs =>
    match skipGaps false cs with
    | none => none
    | some (']' :: rest) => some ([], rest)
    | some cs =>
      match readValue fuel depth cs with
      | none => none
      | some (v, rest) =>
        match skipGaps false rest with
        | some (',' :: rest) => (readItems fuel depth rest).map fun r ↦ (v :: r.1, r.2)
        | some (']' :: rest) => some ([v], rest)
        | _ => none

/-- The bindings of an inline table through its closing brace. -/
def readBindings : Nat → Nat → List Char → Option (List (List String × TomlValue) × List Char)
  | 0, _, _ => none
  | fuel + 1, depth, cs =>
    match skipGaps false cs with
    | none => none
    | some ('\x7d' :: rest) => some ([], rest)
    | some cs =>
      match readBinding fuel depth cs with
      | none => none
      | some (b, rest) =>
        match skipGaps false rest with
        | some (',' :: rest) => (readBindings fuel depth rest).map fun r ↦ (b :: r.1, r.2)
        | some ('\x7d' :: rest) => some ([b], rest)
        | _ => none

/-- A key, an equals sign and a value. -/
def readBinding : Nat → Nat → List Char → Option ((List String × TomlValue) × List Char)
  | 0, _, _ => none
  | fuel + 1, depth, cs =>
    match readKey fuel cs with
    | some (path, '=' :: rest) =>
      (readValue fuel depth (skipSpace rest)).map fun r ↦ ((path, r.1), r.2)
    | _ => none

end

/-- A line that says something, up to where it may end. -/
def readLine (fuel : Nat) (cs : List Char) : Option (TomlLine × List Char) :=
  match cs with
  | '[' :: '[' :: rest =>
    match readKey fuel rest with
    | some (path, ']' :: ']' :: rest) => some (.row path, rest)
    | _ => none
  | '[' :: rest =>
    match readKey fuel rest with
    | some (path, ']' :: rest) => some (.header path, rest)
    | _ => none
  | _ => (readBinding fuel 0 cs).map fun r ↦ (.binding r.1.1 r.1.2, r.2)

/-- The lines of a document that say something. -/
def readLines : Nat → List Char → Option (List TomlLine)
  | 0, _ => none
  | fuel + 1, cs =>
    match skipGaps false cs with
    | none => none
    | some [] => some []
    | some cs =>
      match readLine (cs.length + 4) cs with
      | none => none
      | some (line, rest) =>
        match endLine false rest with
        | none => none
        | some rest => (readLines fuel rest).map (line :: ·)

/-- Without a mark of the byte order at the beginning. -/
def dropMark : List Char → List Char
  | c :: rest => if c.toNat = 0xFEFF then rest else c :: rest
  | [] => []

/-- The table of a document. -/
def ofText? (s : String) : Option TomlTable :=
  let cs := dropMark s.toList
  (readLines (cs.length + 1) cs).bind TomlDocument.ofLines?

end GraphSession.Toml
