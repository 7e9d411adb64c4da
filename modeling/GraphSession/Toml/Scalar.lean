import GraphSession.Calendar.Moment
import GraphSession.Text.Split
import GraphSession.Toml.Text
import GraphSession.Toml.Value

/-!
# Plain values in configuration documents

A value without quotes or brackets is a flag, a whole number, a float, or a date, a time or both.
Digits may be grouped by single underscores between them; a whole number may be written in three
other bases, then without a sign. A decimal number has no needless zero in front.

Numbers beyond the reach of the format, whole ones of more than 128 bits and floats beyond the
finite ones, are refused.
-/

namespace GraphSession.Toml

open Text

/-- Digits of some kind, grouped by underscores: the digits alone. -/
def ungroup? (isDigit : Char → Bool) (cs : List Char) : Option (List Char) :=
  let groups := splitAt '_' cs
  if groups.all fun g ↦ !g.isEmpty && g.all isDigit then some groups.flatten else none

/-- The digits of a decimal number, which has no needless zero in front. -/
def decimalDigits? (cs : List Char) : Option (List Char) :=
  match ungroup? Char.isDigit cs with
  | some ['0'] => some ['0']
  | some ('0' :: _) => none
  | r => r

/-- The number that digits of a base stand for. -/
def naturalOf (base : Nat) (cs : List Char) : Nat :=
  cs.foldl (fun n c ↦ base * n + (Hexadecimal.value? c).getD 0) 0

/-- Whether a character is a digit of a base. -/
def isDigitOf (base : Nat) (c : Char) : Bool :=
  match Hexadecimal.value? c with
  | some d => d < base
  | none => false

/-- A number in another base, after its mark. -/
def inBase? (base : Nat) (cs : List Char) : Option Int :=
  (ungroup? (isDigitOf base) cs).map fun ds ↦ Int.ofNat (naturalOf base ds)

/-- A text without its sign, and whether the sign is a minus. -/
def splitSign : List Char → Bool × List Char
  | '+' :: cs => (false, cs)
  | '-' :: cs => (true, cs)
  | cs => (false, cs)

/-- A number with its sign. -/
def signed (negative : Bool) (n : Nat) : Int := if negative then Int.negOfNat n else Int.ofNat n

/-- A whole number. -/
def integer? : List Char → Option Int
  | '0' :: 'x' :: cs => inBase? 16 cs
  | '0' :: 'o' :: cs => inBase? 8 cs
  | '0' :: 'b' :: cs => inBase? 2 cs
  | cs =>
    let s := splitSign cs
    (decimalDigits? s.2).map fun ds ↦ signed s.1 (naturalOf 10 ds)

/-- Whether a whole number is within reach. -/
def isInReach : Int → Bool
  | .ofNat m => m < Nat.pow 2 128
  | .negSucc m => m < Nat.pow 2 127

/-- Whether a character announces an exponent. -/
def isExponentMark (c : Char) : Bool := c = 'e' || c = 'E'

/-- Whether the number of the given digits, scaled by a power of ten, rounds to a finite float. -/
def isFinite (digits : List Char) (scale : Int) : Bool :=
  let m := naturalOf 10 digits
  let places : Int := (Nat.toDigits 10 m).length + scale
  if m = 0 ∨ places < 300 then true
  else if 310 < places then false
  else
    match scale with
    | .ofNat s => m * Nat.pow 10 s < Nat.pow 2 1024 - Nat.pow 2 970
    | .negSucc s => m < (Nat.pow 2 1024 - Nat.pow 2 970) * Nat.pow 10 (s + 1)

/-- The exponent after its mark, if there is one. -/
def exponent? : Option (List Char) → Option Int
  | none => some 0
  | some cs =>
    let s := splitSign cs
    (ungroup? Char.isDigit s.2).map fun ds ↦ signed s.1 (naturalOf 10 ds)

/-- The digits after the point, if there is one. -/
def fraction? : Option (List Char) → Option (List Char)
  | none => some []
  | some cs => ungroup? Char.isDigit cs

/-- Whether a text is a float: a sign, digits, and a fraction or an exponent or both. -/
def isFloat (cs : List Char) : Bool :=
  let body := (splitSign cs).2
  if body = ['i', 'n', 'f'] ∨ body = ['n', 'a', 'n'] then true
  else
    match breakAt isExponentMark body with
    | (mantissa, tail) =>
      let exponent := if tail.isEmpty then none else some (tail.drop 1)
      let parts := cutAt '.' mantissa
      if parts.2.isNone ∧ exponent.isNone then false
      else
        match decimalDigits? parts.1, fraction? parts.2, exponent? exponent with
        | some whole, some fraction, some e => isFinite (whole ++ fraction) (e - fraction.length)
        | _, _, _ => false

/-- The number of exactly so many digits. -/
def fixed? (count : Nat) (cs : List Char) : Option Nat :=
  if cs.length = count ∧ cs.all Char.isDigit then some (naturalOf 10 cs) else none

/-- Whether a text is a date. -/
def isDate (cs : List Char) : Bool :=
  match (splitAt '-' cs) with
  | [y, m, d] =>
    match fixed? 4 y, fixed? 2 m, fixed? 2 d with
    | some y, some m, some d =>
      1 ≤ m && m ≤ 12 && 1 ≤ d && d ≤ Date.daysInMonth y m
    | _, _, _ => false
  | _ => false

/-- Whether digits after the point of a second are there. -/
def isFraction (cs : Option (List Char)) : Bool :=
  match cs with
  | none => true
  | some ds => !ds.isEmpty && ds.all Char.isDigit

/-- Whether a text is a number of two digits up to a greatest one. -/
def isUpTo (most : Nat) (cs : List Char) : Bool :=
  match fixed? 2 cs with
  | some n => n ≤ most
  | none => false

/-- Whether a text is a time of day; seconds may be left out. -/
def isTime (cs : List Char) : Bool :=
  match splitAt ':' cs with
  | [h, m] => isUpTo 23 h && isUpTo 59 m
  | [h, m, s] =>
    let parts := cutAt '.' s
    isUpTo 23 h && isUpTo 59 m && isUpTo 60 parts.1 && isFraction parts.2
  | _ => false

/-- Whether a text is a distance from universal time. -/
def isOffset (cs : List Char) : Bool :=
  match splitAt ':' cs with
  | [h, m] => isUpTo 23 h && isUpTo 59 m
  | _ => false

/-- Whether a text is a time of day, with a distance from universal time or without. -/
def isZonedTime (cs : List Char) : Bool :=
  match breakAt (fun c ↦ c = 'Z' || c = 'z' || c = '+' || c = '-') cs with
  | (time, []) => isTime time
  | (time, mark :: tail) =>
    isTime time && (if mark = '+' ∨ mark = '-' then isOffset tail else tail.isEmpty)

/-- Whether a text is a date, a time or both. -/
def isDateTime (cs : List Char) : Bool :=
  match breakAt (fun c ↦ c = 'T' || c = 't' || c = ' ') cs with
  | (day, []) => isDate day || isTime day
  | (day, _ :: time) => isDate day && isZonedTime time

/-- The value of a text without quotes or brackets. -/
def scalar? (cs : List Char) : Option TomlValue :=
  if cs = ['t', 'r', 'u', 'e'] then some (.flag true)
  else if cs = ['f', 'a', 'l', 's', 'e'] then some (.flag false)
  else
    match integer? cs with
    | some n => if isInReach n then some (.integer n) else none
    | none =>
      if isFloat cs then some .float
      else if isDateTime cs then some .dateTime
      else none

end GraphSession.Toml
