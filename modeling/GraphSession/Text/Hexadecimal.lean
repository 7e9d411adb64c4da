/-!
# Hexadecimal digits

Bytes as two digits each. Letters are written in lower case and read in both.
-/

namespace GraphSession.Hexadecimal

/-- The value of a digit, in either case. -/
def value? (c : Char) : Option Nat :=
  if '0' ≤ c ∧ c ≤ '9' then some (c.toNat - 48)
  else if 'a' ≤ c ∧ c ≤ 'f' then some (c.toNat - 87)
  else if 'A' ≤ c ∧ c ≤ 'F' then some (c.toNat - 55)
  else none

/-- The two digits of a byte, in lower case. -/
def digits (b : UInt8) : List Char :=
  [Nat.digitChar (b.toNat / 16), Nat.digitChar (b.toNat % 16)]

/-- The digits of some bytes, two for each. -/
def encode (bs : List UInt8) : String := String.ofList (bs.flatMap digits)

/-- The bytes that pairs of digits stand for; a digit that is left over spoils the text. -/
def decodeChars : List Char → Option (List UInt8)
  | [] => some []
  | a :: b :: rest => do
    let x ← value? a
    let y ← value? b
    let bs ← decodeChars rest
    pure (UInt8.ofNat (16 * x + y) :: bs)
  | [_] => none

/-- The bytes of a text of digits. -/
def decode? (s : String) : Option (List UInt8) := decodeChars s.toList

end GraphSession.Hexadecimal
