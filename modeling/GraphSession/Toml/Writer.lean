import GraphSession.Toml.Text

/-!
# Writing configuration documents

Texts are written in the plainest style that needs no escape: between double quotes, then between
single ones, then between three double and three single ones. A text that needs escapes in every
style is written between double quotes, three of them if it has line breaks.

A style of three quotes begins with a line break when the text has one, which reading drops again.
-/

namespace GraphSession.Toml

/-- Whether a text has a control that only an escape can show. -/
def hasControl (cs : List Char) : Bool := cs.any fun c ↦ !isPlain c && c ≠ '\n'

/-- The length of the longest run of a character, after a run of `now` and one of `best`. -/
def longestRun (q : Char) (now best : Nat) : List Char → Nat
  | [] => best
  | c :: cs =>
    if c = q then longestRun q (now + 1) (max best (now + 1)) cs else longestRun q 0 best cs

/-- How a text can be quoted: with escapes or as it is, on one line or on several. -/
inductive TextStyle where
  | escaped | raw | longEscaped | longRaw
  deriving DecidableEq

/-- The style a text is written in. -/
def styleOf (cs : List Char) : TextStyle :=
  let control := hasControl cs
  let backslash := cs.contains '\\'
  let lines := cs.contains '\n'
  let double := longestRun '\x22' 0 0 cs
  let single := longestRun '\'' 0 0 cs
  if !control && !backslash && double = 0 && !lines then .escaped
  else if !control && single = 0 && !lines then .raw
  else if !control && !backslash && double ≤ 2 then .longEscaped
  else if !control && single ≤ 2 then .longRaw
  else if lines then .longEscaped
  else .escaped

/-- Four upper-case hexadecimal digits. -/
def fourHex (n : Nat) : List Char :=
  [n / 4096 % 16, n / 256 % 16, n / 16 % 16, n % 16].map fun d ↦ (Nat.digitChar d).toUpper

/-- A character that is no quote, between double quotes. -/
def escapeChar (long : Bool) (c : Char) : List Char :=
  if c = '\\' then ['\\', '\\']
  else if c = '\x08' then ['\\', 'b']
  else if c = '\t' then ['\\', 't']
  else if c = '\n' then if long then ['\n'] else ['\\', 'n']
  else if c = '\x0c' then ['\\', 'f']
  else if c = '\r' then ['\\', 'r']
  else if isPlain c then [c]
  else '\\' :: 'u' :: fourHex c.toNat

/-- Characters between double quotes. Of quotes in a row, in a text of several lines only every
third one is escaped; `quotes` is how many have passed since. -/
def escapeFrom (long : Bool) (quotes : Nat) : List Char → List Char
  | [] => []
  | c :: cs =>
    if c = '\x22' then
      if long ∧ quotes < 2 then '\x22' :: escapeFrom long (quotes + 1) cs
      else '\\' :: '\x22' :: escapeFrom long 0 cs
    else escapeChar long c ++ escapeFrom long 0 cs

/-- What begins and ends an escaped text of several lines. -/
def threeDouble : List Char := ['\x22', '\x22', '\x22']

/-- What begins and ends a raw text of several lines. -/
def threeSingle : List Char := ['\'', '\'', '\'']

/-- The break after opening quotes. -/
def leadingBreak (cs : List Char) : List Char := if cs.contains '\n' then ['\n'] else []

/-- A text between quotes, in the style that suits it. -/
def writeText (cs : List Char) : List Char :=
  match styleOf cs with
  | .escaped => '\x22' :: (escapeFrom false 0 cs ++ ['\x22'])
  | .raw => '\'' :: (cs ++ ['\''])
  | .longEscaped => threeDouble ++ leadingBreak cs ++ escapeFrom true 0 cs ++ threeDouble
  | .longRaw => threeSingle ++ leadingBreak cs ++ cs ++ threeSingle

/-- The decimal digits of a number. -/
def writeNat (n : Nat) : List Char := Nat.toDigits 10 n

/-- A line that binds a bare name. -/
def writeBinding (name : String) (value : List Char) : List Char :=
  name.toList ++ [' ', '=', ' '] ++ value ++ ['\n']

end GraphSession.Toml
