import GraphSession.Text.Blank
import GraphSession.Text.Split
import GraphSession.Text.Utf8
import GraphSession.Url.Punycode

/-!
# Domains

A domain is a list of labels between dots. It is written in ASCII: letters fold to their lower case,
characters that do not show are dropped, the dots of other scripts are dots, and a label that is
still beyond ASCII is written in punycode. A label that already claims to be punycode has to be the
form of a label that needs it.

Folding knows the letters of the Latin, Greek, Cyrillic and Armenian scripts and the wide forms of
ASCII; other characters stand for themselves.

**Which domains are exact.** A domain is accepted, refused and written exactly as the rules for
internationalized names ask if each of its characters, and each character that a label in punycode
stands for, is one of these:
* ASCII, and its wide forms `U+FF01` to `U+FF5E`;
* Latin `U+00C0` to `U+00D6`, `U+00D8` to `U+00F6`, `U+00F8` to `U+012F`, `U+0134` to `U+013E`,
  `U+0141` to `U+0148`, `U+014A` to `U+0177` and `U+0179` to `U+017E`;
* Greek `U+0390` to `U+03A1` and `U+03A3` to `U+03CE`;
* Cyrillic `U+0400` to `U+0481`, `U+048A` to `U+04BF` and `U+04C1` to `U+052F`;
* Armenian `U+0531` to `U+0556` and `U+0561` to `U+0586`.

For other characters the rules ask more than is modelled here. A character is not taken to the
compatible ones (a ligature to its letters, a circled digit to the digit), letters and marks are not
composed, the order of letters that run from right to left is not checked, and a code point without
a character is let through unless it is listed in `unfit`. Such a domain may be read or written
differently here.
-/

namespace GraphSession.Domain

open Text

/-- Upper-case letters that lie in a range, with the distance to their lower case. -/
def shifted : List (Nat × Nat × Nat) :=
  [(0x41, 0x5A, 32), (0xC0, 0xD6, 32), (0xD8, 0xDE, 32), (0x391, 0x3A1, 32), (0x3A3, 0x3AB, 32),
   (0x400, 0x40F, 80), (0x410, 0x42F, 32), (0x531, 0x556, 48)]

/-- Ranges in which an upper-case letter, even or odd as given, comes before its lower case. -/
def paired : List (Nat × Nat × Nat) :=
  [(0x100, 0x12F, 0), (0x132, 0x137, 0), (0x139, 0x148, 1), (0x14A, 0x177, 0), (0x179, 0x17E, 1),
   (0x1CD, 0x1DC, 1), (0x1DE, 0x1EF, 0), (0x1F8, 0x21F, 0), (0x222, 0x233, 0), (0x3D8, 0x3EF, 0),
   (0x460, 0x481, 0), (0x48A, 0x4BF, 0), (0x4C1, 0x4CE, 1), (0x4D0, 0x52F, 0), (0x1E00, 0x1E95, 0),
   (0x1EA0, 0x1EFF, 0)]

/-- Characters that do not show. -/
def unseen : List (Nat × Nat) :=
  [(0xAD, 0xAD), (0x34F, 0x34F), (0x180B, 0x180D), (0x200B, 0x200B), (0x2060, 0x2060),
   (0x2064, 0x2064), (0xFE00, 0xFE0F), (0xFEFF, 0xFEFF)]

/-- Characters beyond ASCII that no domain has: controls, marks of direction, private and
unassigned ones. -/
def unfit : List (Nat × Nat) :=
  [(0x80, 0x9F), (0x200C, 0x200F), (0x2028, 0x202E), (0x2061, 0x206F), (0xE000, 0xF8FF),
   (0xFDD0, 0xFDEF), (0xFFF0, 0xFFFF), (0xE0000, 0x10FFFF)]

/-- The dots of other scripts. -/
def dots : List Nat := [0x3002, 0xFF0E, 0xFF61]

/-- The code point of the lower case of a letter, and any other one as it is. -/
def shiftOf (n : Nat) : Nat :=
  match shifted.find? fun r ↦ r.1 ≤ n && n ≤ r.2.1 with
  | some r => n + r.2.2
  | none =>
    match paired.find? fun r ↦ r.1 ≤ n && n ≤ r.2.1 && n % 2 = r.2.2 with
    | some _ => n + 1
    | none => n

/-- A letter in lower case, and any other character as it is. -/
def lower (c : Char) : Char := Char.ofNat (shiftOf c.toNat)

/-- What a character of a domain is written as. This is the mapping of the rules on the characters
for which domains are exact, and beyond them on the characters that are named here; any other is
kept. -/
def fold (c : Char) : List Char :=
  let n := c.toNat
  if inRanges unseen n then []
  else if dots.contains n then ['.']
  else if 0xFF01 ≤ n ∧ n ≤ 0xFF5E then [lower (Char.ofNat (n - 0xFEE0))]
  else if n = 0x1E9E then ['s', 's']
  else if 0x80 ≤ n ∧ isBlank c then [' ']
  else [lower c]

/-- The ASCII characters that no domain has. -/
def forbidden : List Char :=
  ['%', '#', '/', ':', '<', '>', '?', '@', '[', '\\', ']', '^', '|']

/-- Whether a folded character may stand in a domain. -/
def isFit (c : Char) : Bool :=
  let n := c.toNat
  if n < 0x80 then 0x20 < n && n < 0x7F && !forbidden.contains c else !inRanges unfit n

/-- Whether a character is in ASCII. -/
def isAscii (c : Char) : Bool := c.toNat < 0x80

/-- What a label in punycode begins with. -/
def mark : List Char := ['x', 'n', '-', '-']

/-- Whether a label in punycode is the form of a label that needs it. -/
def isProper (coded : List Char) : Bool :=
  match Punycode.decode? coded with
  | none => false
  | some label =>
    !label.all isAscii && label.all isFit && label.flatMap fold = label

/-- A folded label in ASCII. -/
def label? (cs : List Char) : Option (List Char) :=
  if cs.all isFit then
    if cs.all isAscii then
      if mark.isPrefixOf cs then if isProper (cs.drop 4) then some cs else none else some cs
    else if mark.isPrefixOf cs then none
    else some (mark ++ Punycode.encode cs)
  else none

/-- Folded labels in ASCII, if each of them can be written so. -/
def labels? : List (List Char) → Option (List (List Char))
  | [] => some []
  | l :: rest =>
    match label? l, labels? rest with
    | some a, some as => some (a :: as)
    | _, _ => none

/-- A domain in ASCII. -/
def ascii? (cs : List Char) : Option (List Char) :=
  (labels? (splitAt '.' (cs.flatMap fold))).map (List.intercalate ['.'])

/-- The domain that some bytes spell. -/
def ofBytes? (bs : List UInt8) : Option (List Char) := (Utf8.decode? bs).bind ascii?

end GraphSession.Domain
