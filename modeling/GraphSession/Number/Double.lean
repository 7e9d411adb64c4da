/-!
# Binary64 numbers as words

A measured quantity of a graph (a node's place, its run time, a float in a free-form value) is an
IEEE 754 binary64 number. It is kept here as its 64-bit word, so two numbers are the same value
exactly when the words agree, and every operation is exact arithmetic on natural numbers followed
by one rounding.

**Everything rests on one rounding.** `ofRatio` takes a quotient of naturals to the nearest
number, halves to the even neighbour; conversion from an integer, product and quotient are that
rounding at a ratio. Nothing here touches the machine's floating point.

**Magnitude.** A finite number is `m · 2 ^ e` with `m < 2 ^ 53` and `-1074 ≤ e`, and its word
without the sign is `(e + 1074) · 2 ^ 52 + m`: the hidden bit of a normal number carries into the
exponent field by itself, so normal, subnormal and rounded-up cases need no separate treatment.
-/

namespace GraphSession

/-- A binary64 number, held as its word. -/
structure Double where
  word : UInt64
  deriving DecidableEq

namespace Double

/-- The word of positive infinity; every smaller magnitude is finite. -/
def infinityMagnitude : Nat := 0x7FF0000000000000

/-- The weight of the sign bit. -/
def signWeight : Nat := Nat.pow 2 63

/-- The word without its sign bit. -/
def magnitude (d : Double) : Nat := d.word.toNat % signWeight

/-- The sign bit is set, as it may be of a zero or a NaN too. -/
def isNegative (d : Double) : Bool := signWeight ≤ d.word.toNat

/-- The number is neither infinite nor NaN. -/
def isFinite (d : Double) : Bool := d.magnitude < infinityMagnitude

/-- The word stands for no number. There are many such words, of either sign. -/
def isNaN (d : Double) : Bool := infinityMagnitude < d.magnitude

/-- One of the two zeros. -/
def isZero (d : Double) : Bool := d.magnitude == 0

/-- The number of the given sign and magnitude; a magnitude past infinity stops there. -/
def ofMagnitude (negative : Bool) (magnitude : Nat) : Double :=
  let capped := min magnitude infinityMagnitude
  ⟨UInt64.ofNat (if negative then signWeight + capped else capped)⟩

/-- The zero without a sign. -/
def zero : Double := ofMagnitude false 0

/-- Sign reversal, of zero too. -/
def negate (d : Double) : Double := ofMagnitude (!d.isNegative) d.magnitude

/-- Numeric equality: both zeros are equal, and nothing equals a NaN. -/
def same (a b : Double) : Bool :=
  !a.isNaN && !b.isNaN && (a.word == b.word || (a.isZero && b.isZero))

/-- The integer `m` of the form `m · 2 ^ e` of a finite number. -/
def significand (d : Double) : Nat :=
  if d.magnitude < Nat.pow 2 52 then d.magnitude
  else Nat.pow 2 52 + d.magnitude % Nat.pow 2 52

/-- The exponent `e` of the form `m · 2 ^ e`, raised by 1074 so that it is a natural number. -/
def raisedExponent (d : Double) : Nat := d.magnitude / Nat.pow 2 52 - 1

/-- The magnitude of a finite number as an exact quotient. -/
def ratio (d : Double) : Nat × Nat :=
  (d.significand * Nat.pow 2 d.raisedExponent, Nat.pow 2 1074)

/-- The nearest natural number to a quotient, halves to the even neighbour. -/
def roundDiv (num den : Nat) : Nat :=
  let q := num / den
  let twice := 2 * (num % den)
  if den < twice ∨ (den = twice ∧ q % 2 = 1) then q + 1 else q

/-- The number nearest to `num / den`, for `0 < den`. The raised exponent is the least one at which
the quotient fits 53 bits, so the significand keeps all the bits there are. -/
def ofRatio (negative : Bool) (num den : Nat) : Double :=
  if num = 0 then ofMagnitude negative 0
  else
    let scaled := num * Nat.pow 2 1074
    let bits := Nat.log2 (scaled / den)
    let raised := bits - 52
    ofMagnitude negative
      (raised * Nat.pow 2 52 + roundDiv scaled (den * Nat.pow 2 raised))

/-- The nearest number to a natural number. -/
def ofNat (n : Nat) : Double := ofRatio false n 1

/-- The nearest number to an integer. -/
def ofInt (n : Int) : Double := ofRatio (n < 0) n.natAbs 1

/-- The magnitude of the product of two finite numbers, rounded. -/
def product (a b : Double) : Double :=
  let (p, q) := a.ratio
  let (r, s) := b.ratio
  ofRatio false (p * r) (q * s)

/-- The magnitude of the quotient of two finite numbers, rounded; the divisor is not zero. -/
def quotient (a b : Double) : Double :=
  let (p, q) := a.ratio
  let (r, s) := b.ratio
  ofRatio false (p * s) (q * r)

end Double

end GraphSession
