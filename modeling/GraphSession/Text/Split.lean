/-!
# Splitting

The pieces of a text between separators: one more than there are separators, so never none.
-/

namespace GraphSession.Text

/-- The pieces between the characters that separate. -/
def split (isSeparator : Char → Bool) : List Char → List (List Char)
  | [] => [[]]
  | c :: cs =>
    match isSeparator c, split isSeparator cs with
    | true, r => [] :: r
    | false, [] => [[c]]
    | false, s :: rest => (c :: s) :: rest

/-- The pieces between occurrences of one character. -/
def splitAt (sep : Char) (cs : List Char) : List (List Char) := split (· = sep) cs

/-- Splitting leaves at least one part, if only an empty one. -/
theorem split_ne_nil (p : Char → Bool) (cs : List Char) : split p cs ≠ [] := by
  cases cs with
  | nil => simp [split]
  | cons c cs =>
    simp only [split]
    split <;> simp

/-- The characters up to the first that is wanted, and those from there on. -/
def breakAt (stop : Char → Bool) (cs : List Char) : List Char × List Char :=
  cs.span fun c ↦ !stop c

/-- The characters before and after the first occurrence of one character. -/
def cutAt (sep : Char) (cs : List Char) : List Char × Option (List Char) :=
  match breakAt (· = sep) cs with
  | (a, []) => (a, none)
  | (a, _ :: b) => (a, some b)

end GraphSession.Text
