import GraphSession.Number.Double

/-!
# The shortest decimal that reads back

A finite binary64 number stands for an interval of reals, those that round to it. Among the
decimals in that interval the shortest are wanted, and of those the one nearest to the number.

**The search is over grids, not over algorithms.** The `n`-digit decimals near the number form a
grid. If a point of the grid lies in the interval, so does one of the two grid neighbours of the
number itself, so trying `n = 1, …, 17` with two candidates each finds the shortest length; 17
digits always suffice. All comparisons are between naturals.

**Ties.** Two candidates at the same distance go to the even one.
-/

namespace GraphSession

/-- A positive decimal `digits · 10 ^ (exponent - places + 1)`, where `places` is the number of
digits: `exponent` is the decimal exponent of the first digit. -/
structure Decimal where
  digits : Nat
  exponent : Int
  deriving DecidableEq

namespace Decimal

/-- How many decimal digits a natural number has; zero has one. -/
def digitCount (n : Nat) : Nat := (Nat.toDigits 10 n).length

/-- The exponent of the first decimal digit of `num / den`, both positive. -/
def leadingExponent (num den : Nat) : Int :=
  if den ≤ num then (digitCount (num / den) : Int) - 1
  else
    let atLeast := (den + num - 1) / num
    Int.negOfNat (digitCount (atLeast - 1))

/-- A finite positive number together with the reals that round to it, all in units of a quarter
of its last bit: `value` with the ends `low` and `high`, which belong to the interval when
`closed`. One unit is `unitNum / unitDen`. -/
structure Span where
  value : Nat
  low : Nat
  high : Nat
  closed : Bool
  unitNum : Nat
  unitDen : Nat

/-- Below a power of two the neighbour is only half as far away. -/
def Span.ofDouble (d : Double) : Span :=
  let m := d.significand
  let nearBelow := m = Nat.pow 2 52 ∧ 0 < d.raisedExponent
  { value := 4 * m
    low := if nearBelow then 4 * m - 1 else 4 * m - 2
    high := 4 * m + 2
    closed := m % 2 = 0
    unitNum := Nat.pow 2 d.raisedExponent
    unitDen := Nat.pow 2 1076 }

/-- Whether the candidate `c · stepNum / stepDen` rounds to the number. -/
def Span.holds (s : Span) (c stepNum stepDen : Nat) : Bool :=
  let point := c * stepNum * s.unitDen
  let low := s.low * s.unitNum * stepDen
  let high := s.high * s.unitNum * stepDen
  if s.closed then low ≤ point && point ≤ high else low < point && point < high

/-- The candidate of `places` digits, if one of the two next to the number rounds to it. -/
def Span.candidate (s : Span) (exponent : Int) (places : Nat) : Option Nat :=
  let shift := exponent - places + 1
  let stepNum := Nat.pow 10 shift.toNat
  let stepDen := Nat.pow 10 (-shift).toNat
  let num := s.value * s.unitNum * stepDen
  let den := s.unitDen * stepNum
  let below := num / den
  let above := below + 1
  match s.holds below stepNum stepDen && 0 < below, s.holds above stepNum stepDen with
  | true, true =>
    let twice := 2 * (num % den)
    if twice < den then some below
    else if den < twice then some above
    else if below % 2 = 0 then some below else some above
  | true, false => some below
  | false, true => some above
  | false, false => none

/-- The first length with a candidate. A candidate that reached the next power of ten has its
first digit one place further left. -/
def Span.search (s : Span) (exponent : Int) (places : Nat) : Nat → Decimal
  | 0 => ⟨0, 0⟩
  | fuel + 1 =>
    match s.candidate exponent places with
    | some digits =>
      if digits = Nat.pow 10 places then ⟨1, exponent + 1⟩ else ⟨digits, exponent⟩
    | none => s.search exponent (places + 1) fuel

/-- The shortest decimal that reads back as the magnitude of a finite number other than zero. -/
def shortest (d : Double) : Decimal :=
  let s := Span.ofDouble d
  s.search (leadingExponent (s.value * s.unitNum) s.unitDen) 1 17

end Decimal

end GraphSession
