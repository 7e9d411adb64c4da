import GraphSession.Number.Numeral
import GraphSession.Settings.Basic
import GraphSession.Text.Blank

/-!
# Settings from variables

Variables of the environment override the defaults. A variable counts if it bears the name of a
setting in capitals, after a fixed head, and its value is usable: a URL may be any text, a number
has to be written in digits, with a plus sign or without, and blanks around it. The last one that
counts wins, and the others have no effect.
-/

namespace GraphSession

namespace Settings

/-- What the names of variables begin with. -/
def variableHead : String := "FLOWSYNC_"

/-- A number below `2 ^ 64` in digits. -/
def digits? (cs : List Char) : Option Nat :=
  if cs.isEmpty || !cs.all Char.isDigit then none
  else
    let n := Numeral.naturalOf (cs.map fun c ↦ c.toNat - 48)
    if n < Nat.pow 2 64 then some n else none

/-- The number that the value of a variable spells. -/
def number? (value : String) : Option Nat :=
  match Text.trim value.toList with
  | '+' :: cs => digits? cs
  | cs => digits? cs

/-- The settings after one variable. -/
def override (s : Settings) (name value : String) : Settings :=
  let number (set : Nat → Settings) : Settings :=
    match number? value with
    | some n => set n
    | none => s
  if name = variableHead ++ "API_URL" then { s with apiUrl := value }
  else if name = variableHead ++ "WS_URL" then { s with wsUrl := value }
  else if name = variableHead ++ "TASK_TIMEOUT_MS" then number fun n ↦ { s with taskTimeout := n }
  else if name = variableHead ++ "REQUEST_TIMEOUT_MS" then
    number fun n ↦ { s with requestTimeout := n }
  else if name = variableHead ++ "FILE_CACHE_SIZE" then
    number fun n ↦ { s with fileCacheSize := n }
  else if name = variableHead ++ "RESULT_CACHE_SIZE" then
    number fun n ↦ { s with resultCacheSize := n }
  else if name = variableHead ++ "RESULT_BASIC_DURATION_MS" then
    number fun n ↦ { s with resultBasicDuration := n }
  else s

/-- The defaults, overridden by variables in order. -/
def ofVariables (vars : List (String × String)) : Settings :=
  vars.foldl (fun s v ↦ s.override v.1 v.2) default

end Settings

end GraphSession
