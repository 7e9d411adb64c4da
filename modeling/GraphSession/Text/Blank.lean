/-!
# Blanks

Blanks are the characters with the Unicode property White_Space. Trimming and the lenient readers
of numbers and times all use this one set, so a no-break space is a blank and a zero-width space is
not.
-/

namespace GraphSession.Text

/-- The code points with the property White_Space, as ranges. -/
def blankRanges : List (Nat × Nat) :=
  [(0x09, 0x0D), (0x20, 0x20), (0x85, 0x85), (0xA0, 0xA0), (0x1680, 0x1680), (0x2000, 0x200A),
   (0x2028, 0x2029), (0x202F, 0x202F), (0x205F, 0x205F), (0x3000, 0x3000)]

/-- Whether a code point lies in one of the ranges. -/
def inRanges (ranges : List (Nat × Nat)) (n : Nat) : Bool :=
  ranges.any fun r ↦ r.1 ≤ n && n ≤ r.2

/-- Whether a character is blank in the sense of Unicode. -/
def isBlank (c : Char) : Bool := inRanges blankRanges c.toNat

/-- The text without the blanks it begins with. -/
def trimStart (cs : List Char) : List Char := cs.dropWhile isBlank

/-- The text without the blanks it ends with. -/
def trimEnd (cs : List Char) : List Char := (cs.reverse.dropWhile isBlank).reverse

/-- A text without the blanks at both its ends. -/
def trim (cs : List Char) : List Char := trimEnd (trimStart cs)

end GraphSession.Text
