import GraphSession.Number.Shortest

/-!
# How a number is written

The decimal itself comes from `Decimal.shortest`. What is decided here is only its layout, and it
is one record value, `NumberLayout.wire`: positional while the exponent of the first digit lies in
`[-5, 15]`, always with a point, otherwise one digit before the point and a signed exponent.
-/

namespace GraphSession

/-- The choices that turn a decimal into text. -/
structure NumberLayout where
  /-- The least exponent of a first digit that is written positionally. -/
  leastPositional : Int
  /-- The greatest exponent of a first digit that is written positionally. -/
  greatestPositional : Int
  /-- What a whole number written positionally ends in. -/
  wholeEnding : String
  /-- What stands between digits and a positive exponent. -/
  raisedMark : String
  /-- What stands between digits and a negative exponent. -/
  loweredMark : String

/-- Numbers on the wire: `1.0`, `0.00001`, `1000000000000000.0`, `1e+16`, `1e-6`. -/
def NumberLayout.wire : NumberLayout where
  leastPositional := -5
  greatestPositional := 15
  wholeEnding := ".0"
  raisedMark := "e+"
  loweredMark := "e-"

namespace NumberLayout

/-- Digits with a point after the first one, unless there is only one. -/
def pointed : List Char → List Char
  | [] => []
  | [c] => [c]
  | c :: rest => c :: '.' :: rest

/-- The text of a decimal. -/
def write (layout : NumberLayout) (d : Decimal) : List Char :=
  let digits := Nat.toDigits 10 d.digits
  if layout.leastPositional ≤ d.exponent ∧ d.exponent ≤ layout.greatestPositional then
    if d.exponent < 0 then
      '0' :: '.' :: (List.replicate (d.exponent.natAbs - 1) '0' ++ digits)
    else
      let before := d.exponent.toNat + 1
      if digits.length ≤ before then
        digits ++ List.replicate (before - digits.length) '0' ++ layout.wholeEnding.toList
      else digits.take before ++ '.' :: digits.drop before
  else
    let mark := if d.exponent < 0 then layout.loweredMark else layout.raisedMark
    pointed digits ++ mark.toList ++ Nat.toDigits 10 d.exponent.natAbs

end NumberLayout

namespace Double

/-- The text of a finite number; zero keeps its sign. -/
def textWith (layout : NumberLayout) (d : Double) : List Char :=
  let unsigned :=
    if d.isZero then '0' :: layout.wholeEnding.toList
    else layout.write (Decimal.shortest d)
  if d.isNegative then '-' :: unsigned else unsigned

/-- The digits of a number as they stand in documents. -/
def text (d : Double) : List Char := d.textWith NumberLayout.wire

end Double

end GraphSession
