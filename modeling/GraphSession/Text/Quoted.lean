import GraphSession.Text.Visible

/-!
# Quoted text in messages

A message that names an offending string shows it between double quotes so that every character
can be told: quotes and backslashes are escaped, the usual controls have a letter, and any other
character that does not show is written by its code point in lower-case hexadecimal.
-/

namespace GraphSession.Text

/-- A number in lower-case hexadecimal. -/
def hexText (n : Nat) : List Char := Nat.toDigits 16 n

/-- One character of a quoted text. -/
def quotedChar (c : Char) : List Char :=
  if c = '\x00' then ['\\', '0']
  else if c = '\t' then ['\\', 't']
  else if c = '\n' then ['\\', 'n']
  else if c = '\r' then ['\\', 'r']
  else if c = '\x22' ∨ c = '\\' then ['\\', c]
  else if shows c then [c]
  else ['\\', 'u', '\x7b'] ++ hexText c.toNat ++ ['\x7d']

/-- A text between quotes, as it is shown to those who look for mistakes. -/
def quoted (s : String) : String :=
  String.ofList ('\x22' :: s.toList.flatMap quotedChar ++ ['\x22'])

end GraphSession.Text
