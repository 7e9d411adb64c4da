/-!
# Base 64

Three bytes are written as four characters; a tail of one or two bytes is filled up with `=`.

Reading accepts what writing produces and nothing else: the number of characters is a multiple of
four, the filling is as long as it has to be, and the bits that a short tail leaves unused are zero.
-/

namespace GraphSession.Base64

/-- The character of a six-bit number. -/
def digit (n : Nat) : Char :=
  if n < 26 then Char.ofNat (65 + n)
  else if n < 52 then Char.ofNat (97 + (n - 26))
  else if n < 62 then Char.ofNat (48 + (n - 52))
  else if n = 62 then '+'
  else '/'

/-- The six-bit number of a character. -/
def digitValue? (c : Char) : Option Nat :=
  let n := c.toNat
  if 65 ≤ n ∧ n ≤ 90 then some (n - 65)
  else if 97 ≤ n ∧ n ≤ 122 then some (n - 97 + 26)
  else if 48 ≤ n ∧ n ≤ 57 then some (n - 48 + 52)
  else if c = '+' then some 62
  else if c = '/' then some 63
  else none

/-- The characters of some bytes. -/
def encode : List UInt8 → List Char
  | [] => []
  | [a] => [digit (a.toNat / 4), digit (a.toNat % 4 * 16), '=', '=']
  | [a, b] =>
    [digit (a.toNat / 4), digit (a.toNat % 4 * 16 + b.toNat / 16), digit (b.toNat % 16 * 4), '=']
  | a :: b :: c :: rest =>
    digit (a.toNat / 4) :: digit (a.toNat % 4 * 16 + b.toNat / 16) ::
      digit (b.toNat % 16 * 4 + c.toNat / 64) :: digit (c.toNat % 64) :: encode rest

/-- One byte from two characters, which hold no other bits. -/
def lastByte? (a b : Char) : Option (List UInt8) :=
  match digitValue? a, digitValue? b with
  | some x, some y => if y % 16 = 0 then some [UInt8.ofNat (4 * x + y / 16)] else none
  | _, _ => none

/-- Two bytes from three characters, which hold no other bits. -/
def lastTwo? (a b c : Char) : Option (List UInt8) :=
  match digitValue? a, digitValue? b, digitValue? c with
  | some x, some y, some z =>
    if z % 4 = 0 then some [UInt8.ofNat (4 * x + y / 16), UInt8.ofNat (y % 16 * 16 + z / 4)]
    else none
  | _, _, _ => none

/-- Three bytes from four characters. -/
def three? (a b c d : Char) : Option (List UInt8) :=
  match digitValue? a, digitValue? b, digitValue? c, digitValue? d with
  | some x, some y, some z, some w =>
    some [UInt8.ofNat (4 * x + y / 16), UInt8.ofNat (y % 16 * 16 + z / 4),
      UInt8.ofNat (z % 4 * 64 + w)]
  | _, _, _, _ => none

/-- The bytes of some characters. -/
def decode? : List Char → Option (List UInt8)
  | [] => some []
  | [a, b, '=', '='] => lastByte? a b
  | [a, b, c, '='] => lastTwo? a b c
  | a :: b :: c :: d :: rest =>
    match three? a b c d, decode? rest with
    | some front, some back => some (front ++ back)
    | _, _ => none
  | _ => none

end GraphSession.Base64
