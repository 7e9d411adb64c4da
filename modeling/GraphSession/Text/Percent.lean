import GraphSession.Text.Utf8

/-!
# Percent encoding

A byte that may not stand for itself is written as `%` and two upper-case hexadecimal digits. Which
bytes may stand for themselves differs from place to place, so every use names its set; bytes that
are no ASCII characters never may.

Reading is lenient: a `%` without two digits after it stands for itself.
-/

namespace GraphSession.Percent

/-- One upper-case hexadecimal digit. -/
def digit (n : Nat) : Char := if n < 10 then Char.ofNat (48 + n) else Char.ofNat (55 + n)

/-- The value of a digit, in either case, by the byte it is written as. -/
def digitValue? (b : UInt8) : Option Nat :=
  let n := b.toNat
  if 48 ≤ n ∧ n ≤ 57 then some (n - 48)
  else if 65 ≤ n ∧ n ≤ 70 then some (n - 55)
  else if 97 ≤ n ∧ n ≤ 102 then some (n - 87)
  else none

/-- A byte as a percent sign and two digits, in upper case. -/
def encodeByte (b : UInt8) : List Char := ['%', digit (b.toNat / 16), digit (b.toNat % 16)]

/-- The bytes in order, those in the set as they are. -/
def encode (keeps : UInt8 → Bool) (bs : List UInt8) : List Char :=
  bs.flatMap fun b ↦ if keeps b then [Char.ofNat b.toNat] else encodeByte b

/-- The characters of a text, encoded. -/
def encodeChars (keeps : UInt8 → Bool) (cs : List Char) : List Char := encode keeps (Utf8.encode cs)

/-- The bytes that an encoding stands for. -/
def decode : List UInt8 → List UInt8
  | [] => []
  | [a] => [a]
  | [a, b] => [a, b]
  | a :: b :: c :: rest =>
    if a = 0x25 then
      match digitValue? b, digitValue? c with
      | some x, some y => UInt8.ofNat (16 * x + y) :: decode rest
      | _, _ => a :: decode (b :: c :: rest)
    else a :: decode (b :: c :: rest)

/-- Whether a byte is one of some ASCII characters. -/
def isOneOf (cs : List Char) (b : UInt8) : Bool := cs.any fun c ↦ c.toNat = b.toNat

/-- The printing ASCII characters but some. -/
def allBut (cs : List Char) (b : UInt8) : Bool := 0x20 ≤ b && b < 0x7F && !isOneOf cs b

/-- The letters and digits of ASCII. -/
def isAlphanumeric (b : UInt8) : Bool :=
  (48 ≤ b && b ≤ 57) || (65 ≤ b && b ≤ 90) || (97 ≤ b && b ≤ 122)

/-- What stands for itself wherever a single value is written: letters, digits and four marks. -/
def unreserved (b : UInt8) : Bool := isAlphanumeric b || isOneOf ['-', '_', '.', '~'] b

/-- What stands for itself in a value of a form. -/
def formKept (b : UInt8) : Bool := isAlphanumeric b || isOneOf ['*', '-', '.', '_'] b

/-- A value as one unit of a path or a query. -/
def component (s : String) : String := String.ofList (encodeChars unreserved s.toList)

/-- A value of a form: blanks become plus signs. -/
def formValue (s : String) : List Char :=
  (Utf8.bytesOf s).flatMap fun b ↦
    if b = 0x20 then ['+'] else if formKept b then [Char.ofNat b.toNat] else encodeByte b

end GraphSession.Percent
