import GraphSession.Json.Tree

/-!
# Configuration documents

A document is a table: named values, among them further tables. What may be added to a table later
depends on where it comes from, so a table remembers its origin.

**Extending a table.** A header `[a.b]` goes through the tables on its path and through the last row
of an array of tables; a dotted key `a.b = 1` goes only through tables that dotted keys have made.
Neither enters a table that was written inline. A name is bound once: a second header for the same
table is refused, unless the table so far exists only because a longer header passed through it.
-/

namespace GraphSession

/-- Where a table comes from. -/
inductive TomlOrigin where
  /-- Its own header. -/
  | header
  /-- A longer header that passes through it. -/
  | passed
  /-- A dotted key that passes through it. -/
  | dotted
  /-- Braces. -/
  | inline
  deriving DecidableEq

/-- A value of a document. Of floats and times it is only known that they are there, since nothing
in the settings is one. -/
inductive TomlValue where
  | text (s : String)
  | integer (n : Int)
  | float
  | flag (b : Bool)
  | dateTime
  | array (items : List TomlValue)
  /-- The tables of headers in double brackets. -/
  | rows (tables : List (List (String × TomlValue)))
  | table (origin : TomlOrigin) (entries : List (String × TomlValue))
  deriving Inhabited

/-- The entries of a table, in the order in which they were defined. -/
abbrev TomlTable := List (String × TomlValue)

namespace TomlTable

/-- Whether a path may go on into a table. -/
def isOpen (dotted isLast : Bool) : TomlOrigin → Bool
  | .header => !dotted
  | .passed => !(dotted && isLast)
  | .dotted => true
  | .inline => false

/-- Changes the table that a path leads to, making the tables on the way. -/
def descend (dotted : Bool) (change : TomlTable → Option TomlTable) :
    List String → TomlTable → Option TomlTable
  | [], t => change t
  | k :: ks, t =>
    match t.lookup k with
    | none =>
      (descend dotted change ks []).map fun t' ↦
        Entries.put k (.table (if dotted then .dotted else .passed) t') t
    | some (.table origin es) =>
      if isOpen dotted ks.isEmpty origin then
        (descend dotted change ks es).map fun es' ↦ Entries.put k (.table origin es') t
      else none
    | some (.rows ts) =>
      match dotted, ts.getLast? with
      | false, some es =>
        (descend dotted change ks es).map fun es' ↦
          Entries.put k (.rows (ts.dropLast ++ [es'])) t
      | _, _ => none
    | some _ => none

/-- Binds a name that is not bound. -/
def bind? (k : String) (v : TomlValue) (t : TomlTable) : Option TomlTable :=
  match t.lookup k with
  | none => some (Entries.put k v t)
  | some _ => none

/-- Binds a dotted key. -/
def bindPath? (path : List String) (v : TomlValue) (t : TomlTable) : Option TomlTable :=
  match path.getLast? with
  | none => none
  | some k => descend true (bind? k v) path.dropLast t

/-- Begins the table of a header. -/
def open? (k : String) (t : TomlTable) : Option TomlTable :=
  match t.lookup k with
  | none => some (Entries.put k (.table .header []) t)
  | some (.table .passed es) => some (Entries.put k (.table .header es) t)
  | some _ => none

/-- Begins a row of an array of tables. -/
def openRow? (k : String) (t : TomlTable) : Option TomlTable :=
  match t.lookup k with
  | none => some (Entries.put k (.rows [[]]) t)
  | some (.rows ts) => some (Entries.put k (.rows (ts ++ [[]])) t)
  | some _ => none

/-- The table of the bindings between braces. -/
def ofBindings? (bindings : List (List String × TomlValue)) : Option TomlTable :=
  bindings.foldl (fun t b ↦ t.bind (bindPath? b.1 b.2)) (some [])

end TomlTable

/-- A line of a document that says something. -/
inductive TomlLine where
  | binding (path : List String) (value : TomlValue)
  | header (path : List String)
  | row (path : List String)

/-- A document as far as it has been read, and the header it is under. -/
structure TomlDocument where
  root : TomlTable
  here : List String

namespace TomlDocument

/-- A document without lines. -/
def empty : TomlDocument := ⟨[], []⟩

/-- Goes on under a header. -/
def enter? (d : TomlDocument) (path : List String)
    (place : String → TomlTable → Option TomlTable) : Option TomlDocument :=
  match path.getLast? with
  | none => none
  | some k =>
    (TomlTable.descend false (place k) path.dropLast d.root).map fun root ↦ ⟨root, path⟩

/-- A document with one more line, unless the line contradicts those before. -/
def add? (d : TomlDocument) : TomlLine → Option TomlDocument
  | .binding path v =>
    (TomlTable.descend false (TomlTable.bindPath? path v) d.here d.root).map fun root ↦
      { d with root := root }
  | .header path => d.enter? path TomlTable.open?
  | .row path => d.enter? path TomlTable.openRow?

/-- The table of all lines. -/
def ofLines? (lines : List TomlLine) : Option TomlTable :=
  (lines.foldl (fun d l ↦ d.bind fun d ↦ d.add? l) (some empty)).map root

end TomlDocument

end GraphSession
