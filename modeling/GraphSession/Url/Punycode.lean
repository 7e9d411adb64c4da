/-!
# Punycode

A label with characters beyond ASCII is written in ASCII: first its ASCII characters, then a hyphen
if there were any, then a sequence of numbers that says where the others go. The others are taken in
ascending order, each number being the distance from the place of the one before. A number has
digits of base 36 with the least significant first, and ends at the first digit below a threshold;
the thresholds follow a bias that adapts to the sizes of the numbers so far.

Reading is a walk over the digits with the state `Decoding`; it needs no look ahead.
-/

namespace GraphSession.Punycode

/-- The digit of a value below thirty-six: letters come first. -/
def digit (n : Nat) : Char := if n < 26 then Char.ofNat (97 + n) else Char.ofNat (22 + n)

/-- The value of a digit, in either case. -/
def digitValue? (c : Char) : Option Nat :=
  let n := c.toNat
  if 97 ≤ n ∧ n ≤ 122 then some (n - 97)
  else if 65 ≤ n ∧ n ≤ 90 then some (n - 65)
  else if 48 ≤ n ∧ n ≤ 57 then some (n - 22)
  else none

/-- The threshold of the digit whose place is `place`, in steps of 36 from 36 on. -/
def threshold (bias place : Nat) : Nat :=
  if place ≤ bias then 1 else if bias + 26 ≤ place then 26 else place - bias

/-- A threshold is a digit that is worth something, and at most as many as there are letters. -/
theorem threshold_range (bias place : Nat) :
    1 ≤ threshold bias place ∧ threshold bias place ≤ 26 := by
  unfold threshold
  split
  · omega
  · split <;> omega

/-- The bias of a number of that size. -/
def settle (size steps : Nat) : Nat :=
  if 455 < size then settle (size / 35) (steps + 36) else steps + 36 * size / (size + 38)
termination_by size
decreasing_by exact Nat.div_lt_self (by omega) (by omega)

/-- The bias after a number, of which there were `count` with it. -/
def adapt (number count : Nat) (isFirst : Bool) : Nat :=
  let damped := if isFirst then number / 700 else number / 2
  settle (damped + damped / count) 0

/-- The digits of a number. -/
def digits (bias place number : Nat) : List Char :=
  let t := threshold bias place
  if number < t then [digit number]
  else digit (t + (number - t) % (36 - t)) :: digits bias (place + 36) ((number - t) / (36 - t))
termination_by number
decreasing_by
  have h := threshold_range bias place
  exact Nat.lt_of_le_of_lt (Nat.div_le_self _ _) (by omega)

/-- Where the writing of a label stands. -/
structure Encoding where
  out : List Char
  /-- The distance from the place of the last number. -/
  distance : Nat
  bias : Nat
  /-- How many characters of the label are written. -/
  written : Nat
  isFirst : Bool

/-- Passes one character of the label while those equal to `n` are written. -/
def Encoding.pass (n : Nat) (s : Encoding) (c : Char) : Encoding :=
  if c.toNat < n then { s with distance := s.distance + 1 }
  else if c.toNat = n then
    { out := s.out ++ digits s.bias 36 s.distance, distance := 0,
      bias := adapt s.distance (s.written + 1) s.isFirst, written := s.written + 1,
      isFirst := false }
  else s

/-- Writes all characters equal to the given ones, which ascend. -/
def Encoding.run (label : List Char) (s : Encoding) (from_ : Nat) : List Nat → Encoding
  | [] => s
  | n :: rest =>
    let s' := { s with distance := s.distance + (n - from_) * (s.written + 1) }
    let s' := label.foldl (Encoding.pass n) s'
    Encoding.run label { s' with distance := s'.distance + 1 } (n + 1) rest

/-- Whether a character is in ASCII and stands for itself. -/
def isBasic (c : Char) : Bool := c.toNat < 128

/-- The label in ASCII. -/
def encode (label : List Char) : List Char :=
  let basic := label.filter isBasic
  let others := ((label.filter fun c ↦ !isBasic c).map Char.toNat).mergeSort.eraseDups
  let start : Encoding := ⟨[], 0, 72, basic.length, true⟩
  (if basic.isEmpty then [] else basic ++ ['-']) ++ (start.run label 128 others).out

/-- Where the reading of a label stands. -/
structure Decoding where
  out : List Nat
  /-- The code point and the place of the next character. -/
  code : Nat
  place : Nat
  /-- The number that is being read, the weight and the place of its next digit. -/
  number : Nat
  weight : Nat
  digitPlace : Nat
  bias : Nat

/-- The state once the number is complete: a character comes in. -/
def Decoding.accept (s : Decoding) : Decoding :=
  let size := s.out.length + 1
  let total := s.place + s.number
  let code := s.code + total / size
  let place := total % size
  { out := s.out.take place ++ code :: s.out.drop place, code := code, place := place + 1,
    number := 0, weight := 1, digitPlace := 36,
    bias := adapt s.number size (s.code = 128 && s.place = 0) }

/-- Reads one digit. -/
def Decoding.next (s : Decoding) (d : Nat) : Decoding :=
  let t := threshold s.bias s.digitPlace
  let s' := { s with number := s.number + d * s.weight }
  if d < t then s'.accept
  else { s' with weight := s.weight * (36 - t), digitPlace := s.digitPlace + 36 }

/-- Reads all digits. -/
def Decoding.run (s : Decoding) : List Char → Option Decoding
  | [] => if s.digitPlace = 36 then some s else none
  | c :: rest =>
    match digitValue? c with
    | none => none
    | some d => Decoding.run (s.next d) rest

/-- The characters before the last hyphen and those after it. -/
def splitLast (cs : List Char) : List Char × List Char :=
  match cs.reverse.span (· ≠ '-') with
  | (back, []) => ([], back.reverse)
  | (back, _ :: front) => (front.reverse, back.reverse)

/-- The characters of some code points, if each of them is one. -/
def chars? : List Nat → Option (List Char)
  | [] => some []
  | n :: rest => if n.isValidChar then (chars? rest).map (Char.ofNat n :: ·) else none

/-- The label that an ASCII text stands for. -/
def decode? (cs : List Char) : Option (List Char) :=
  let parts := splitLast cs
  if parts.1.all isBasic then
    let start : Decoding := ⟨parts.1.map Char.toNat, 128, 0, 0, 1, 36, 72⟩
    match start.run parts.2 with
    | none => none
    | some s => chars? s.out
  else none

end GraphSession.Punycode
