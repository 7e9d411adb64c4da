import GraphSession.Number.Double

/-!
# Numerals of a text

A numeral is a number as it was written: a sign, digits before and after the point, and an
exponent. Two values can be asked of it. `integer?` is the whole number it spells out, within 64
bits and only when it has neither point nor exponent. `double?` is the binary64 number.

**`double?` is a fixed recipe, not the nearest number.** Digits are gathered from the left into an
integer below `2 ^ 64` for as long as they fit; a digit that does not fit is dropped with all that
follow it in its part, and a dropped digit before the point still counts as a place. The integer
is then rounded once, and scaled once by a power of ten (below `10 ^ -308` in steps of that size).
Two roundings can miss the nearest number by a unit in the last place; what a numeral means here
is what the recipe gives.
-/

namespace GraphSession

/-- A number as written. Digits are values below ten, most significant first. -/
structure Numeral where
  negative : Bool
  whole : List Nat
  /-- The digits after a point, when there is a point. -/
  fraction : Option (List Nat)
  /-- The exponent, when one is written. -/
  exponent : Option Int
  deriving DecidableEq

namespace Numeral

/-- The natural number that digits spell out. -/
def naturalOf (digits : List Nat) : Nat := digits.foldl (fun n d ↦ 10 * n + d) 0

/-- Integers in reach are those of 64 bits, unsigned when positive and signed when negative. A
negative zero is no integer. -/
def integer? (n : Numeral) : Option Int :=
  match n.fraction, n.exponent with
  | none, none =>
    let m := naturalOf n.whole
    if n.negative then
      if 0 < m ∧ m ≤ Nat.pow 2 63 then some (-(m : Int)) else none
    else if m < Nat.pow 2 64 then some (m : Int) else none
  | _, _ => none

/-- The integer gathered from the digits so far, and the power of ten it stands at. -/
structure Gathered where
  value : Nat
  scale : Int

/-- Gathers the digits before the point; those that no longer fit count as places. -/
def gatherWhole (value : Nat) : List Nat → Gathered
  | [] => ⟨value, 0⟩
  | d :: rest =>
    if 10 * value + d < Nat.pow 2 64 then gatherWhole (10 * value + d) rest
    else ⟨value, rest.length + 1⟩

/-- Gathers digits after the point until one does not fit. -/
def gatherFraction (value : Nat) (scale : Int) : List Nat → Gathered
  | [] => ⟨value, scale⟩
  | d :: rest =>
    if 10 * value + d < Nat.pow 2 64 then gatherFraction (10 * value + d) (scale - 1) rest
    else ⟨value, scale⟩

/-- The digits of a numeral as one number with a power of ten, as far as they are counted. -/
def gathered (n : Numeral) : Gathered :=
  let g := gatherWhole 0 n.whole
  gatherFraction g.value g.scale (n.fraction.getD [])

/-- The greatest power of ten used in one scaling. -/
def greatestPower : Nat := 308

/-- Divides by a power of ten, in steps of at most `10 ^ 308`. -/
def lower (f : Double) (places : Nat) : Double :=
  if _h : places ≤ greatestPower then f.quotient (Double.ofNat (Nat.pow 10 places))
  else if f.isZero then f
  else lower (f.quotient (Double.ofNat (Nat.pow 10 greatestPower))) (places - greatestPower)
termination_by places
decreasing_by simp only [greatestPower] at _h ⊢; omega

/-- Multiplies by a power of ten; none when the result is out of range. -/
def raise (f : Double) (places : Nat) : Option Double :=
  if places ≤ greatestPower then
    let r := f.product (Double.ofNat (Nat.pow 10 places))
    if r.isFinite then some r else none
  else if f.isZero then some f else none

/-- An exponent that a 32-bit word cannot hold settles the value by itself. -/
def exponentLimit : Int := 2147483647

/-- Exponents saturate at the limits of a 32-bit word. -/
def clampScale (e : Int) : Int := max (-exponentLimit - 1) (min exponentLimit e)

/-- The magnitude of the numeral as a binary64 number; none beyond the finite ones. -/
def magnitude? (n : Numeral) : Option Double :=
  let g := n.gathered
  let e := n.exponent.getD 0
  if exponentLimit < e then if g.value = 0 then some Double.zero else none
  else if e < -exponentLimit then some Double.zero
  else
    let f := Double.ofNat g.value
    let scale := clampScale (g.scale + e)
    if 0 ≤ scale then raise f scale.toNat else some (lower f scale.natAbs)

/-- The number that a numeral stands for, unless it lies beyond all finite ones. -/
def double? (n : Numeral) : Option Double :=
  n.magnitude?.map fun f ↦ if n.negative then f.negate else f

end Numeral

end GraphSession
