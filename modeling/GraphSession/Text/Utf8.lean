/-!
# Characters and bytes

Texts travel as bytes in UTF-8. Reading bytes walks over them once, taking one character or one
*bad part* at a time: the longest run of bytes that begins a character and is no whole one, or a
single byte that begins none. A strict reading fails on a bad part, a lossy one puts the replacement
character in its place.
-/

namespace GraphSession.Utf8

/-- The bytes of some characters. -/
def encode (cs : List Char) : List UInt8 := cs.flatMap String.utf8EncodeChar

/-- The bytes of a text. -/
def bytesOf (s : String) : List UInt8 := encode s.toList

/-- What may follow the first byte of a character: for each further byte the least and the greatest
value. Empty for a byte that stands alone, and none for a byte that begins no character. -/
def further? (n : Nat) : Option (List (Nat × Nat)) :=
  let any := (0x80, 0xBF)
  if n < 0x80 then some []
  else if n < 0xC2 then none
  else if n < 0xE0 then some [any]
  else if n = 0xE0 then some [(0xA0, 0xBF), any]
  else if n = 0xED then some [(0x80, 0x9F), any]
  else if n < 0xF0 then some [any, any]
  else if n = 0xF0 then some [(0x90, 0xBF), any, any]
  else if n < 0xF4 then some [any, any, any]
  else if n = 0xF4 then some [(0x80, 0x8F), any, any]
  else none

/-- The bits of the first byte that belong to the code point. -/
def leadBits (n : Nat) : Nat :=
  if n < 0x80 then n else if n < 0xE0 then n % 32 else if n < 0xF0 then n % 16 else n % 8

/-- Takes the further bytes of a character: the code point, if all of them are there, and how many
were taken. -/
def takeFurther (acc taken : Nat) : List (Nat × Nat) → List UInt8 → Option Nat × Nat
  | [], _ => (some acc, taken)
  | _ :: _, [] => (none, taken)
  | r :: rs, b :: rest =>
    if r.1 ≤ b.toNat ∧ b.toNat ≤ r.2 then takeFurther (acc * 64 + b.toNat % 64) (taken + 1) rs rest
    else (none, taken)

/-- The character at the beginning, if there is one, and how many bytes after the first it takes. -/
def first (b : UInt8) (rest : List UInt8) : Option Char × Nat :=
  match further? b.toNat with
  | none => (none, 0)
  | some ranges =>
    let r := takeFurther (leadBits b.toNat) 0 ranges rest
    (r.1.map Char.ofNat, r.2)

/-- The characters of some bytes, with none for each bad part. -/
def parts : List UInt8 → List (Option Char)
  | [] => []
  | b :: rest =>
    let r := first b rest
    r.1 :: parts (rest.drop r.2)
termination_by bs => bs.length
decreasing_by
  simp only [List.length_cons, List.length_drop]
  omega

/-- The characters of the parts, unless one is bad. -/
def whole? : List (Option Char) → Option (List Char)
  | [] => some []
  | none :: _ => none
  | some c :: rest => (whole? rest).map (c :: ·)

/-- The characters, unless a part is bad. -/
def decode? (bs : List UInt8) : Option (List Char) := whole? (parts bs)

/-- The characters, with the replacement character for each bad part. -/
def decodeLossy (bs : List UInt8) : List Char :=
  (parts bs).map fun c ↦ c.getD (Char.ofNat 0xFFFD)

end GraphSession.Utf8
