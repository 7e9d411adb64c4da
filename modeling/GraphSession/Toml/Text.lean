import GraphSession.Json.Reader

/-!
# Texts in configuration documents

A text is written in one of four styles: between double quotes with escapes, or between single
quotes as it is, and either on one line or, between three quotes, on several. In a text of several
lines a line break right after the opening quotes does not count, a backslash at the end of a line
takes away the break and the blanks that follow, and up to two quotes may stand before the closing
ones.
-/

namespace GraphSession.Toml

/-- Whether a character is a space within a line. -/
def isSpace (c : Char) : Bool := c = ' ' || c = '\t'

/-- A blank or part of a line break. -/
def isGap (c : Char) : Bool := isSpace c || c = '\n' || c = '\r'

/-- Whether a character may stand in a text as it is. -/
def isPlain (c : Char) : Bool := c = '\t' || (0x20 ≤ c.toNat && c.toNat ≠ 0x7F)

/-- Whether a character may stand in a text as it is, before the given rest. -/
def mayStand (long : Bool) (c : Char) (rest : List Char) : Bool :=
  isPlain c || (long && (c = '\n' || (c = '\r' && rest.head? = some '\n')))

/-- The character of an escape by one letter. -/
def letterEscape? (c : Char) : Option Char :=
  if c = '\x22' ∨ c = '\\' then some c
  else if c = 'b' then some '\x08'
  else if c = 't' then some '\t'
  else if c = 'n' then some '\n'
  else if c = 'f' then some '\x0c'
  else if c = 'r' then some '\r'
  else if c = 'e' then some '\x1b'
  else none

/-- The number that hexadecimal digits spell. -/
def hexNumber? (cs : List Char) : Option Nat :=
  cs.foldl (fun acc c ↦
    match acc, Hexadecimal.value? c with
    | some n, some d => some (16 * n + d)
    | _, _ => none) (some 0)

/-- The character of an escape by number. -/
def numberEscape? (cs : List Char) : Option Char :=
  match hexNumber? cs with
  | some n => if n.isValidChar then some (Char.ofNat n) else none
  | none => none

/-- What follows a line break, if there is one. -/
def afterBreak? : List Char → Option (List Char)
  | '\n' :: rest => some rest
  | '\r' :: '\n' :: rest => some rest
  | _ => none

/-- What follows a backslash at the end of a line: the next character that is no blank. -/
def joinLines? (cs : List Char) : Option (List Char) :=
  (afterBreak? (cs.dropWhile isSpace)).map fun rest ↦ rest.dropWhile isGap

/-- What comes after a line break is shorter, so reading line by line ends. -/
theorem length_afterBreak?_lt {cs rest : List Char} (h : afterBreak? cs = some rest) :
    rest.length < cs.length := by
  unfold afterBreak? at h
  split at h
  · cases h; simp
  · cases h; simp only [List.length_cons]; omega
  · cases h

/-- What comes after joined lines is shorter, so reading them ends. -/
theorem length_joinLines?_lt {cs rest : List Char} (h : joinLines? cs = some rest) :
    rest.length < cs.length := by
  unfold joinLines? at h
  obtain ⟨r, hr, rfl⟩ := Option.map_eq_some_iff.1 h
  have h1 := length_afterBreak?_lt hr
  have h2 := (List.dropWhile_sublist (p := isGap) (l := r)).length_le
  have h3 := (List.dropWhile_sublist (p := isSpace) (l := cs)).length_le
  omega

/-- What a run of closing quotes means: the quotes that belong to the text, and the rest. -/
def closing (q : Char) : List Char → List Char × List Char
  | a :: b :: rest =>
    if a = q then if b = q then ([q, q], rest) else ([q], b :: rest) else ([], a :: b :: rest)
  | [a] => if a = q then ([q], []) else ([], [a])
  | [] => ([], [])

/-- The characters of a text with escapes, from after its opening quotes, and the rest. -/
def readEscaped (long : Bool) : List Char → Option (List Char × List Char)
  | [] => none
  | '\x22' :: '\x22' :: '\x22' :: rest =>
    if long then some (closing '\x22' rest) else some ([], '\x22' :: '\x22' :: rest)
  | '\x22' :: rest =>
    if long then (readEscaped long rest).map fun r ↦ ('\x22' :: r.1, r.2) else some ([], rest)
  | '\\' :: 'x' :: a :: b :: rest =>
    match numberEscape? [a, b] with
    | some c => (readEscaped long rest).map fun r ↦ (c :: r.1, r.2)
    | none => none
  | '\\' :: 'u' :: a :: b :: c :: d :: rest =>
    match numberEscape? [a, b, c, d] with
    | some c => (readEscaped long rest).map fun r ↦ (c :: r.1, r.2)
    | none => none
  | '\\' :: 'U' :: a :: b :: c :: d :: e :: f :: g :: i :: rest =>
    match numberEscape? [a, b, c, d, e, f, g, i] with
    | some c => (readEscaped long rest).map fun r ↦ (c :: r.1, r.2)
    | none => none
  | '\\' :: rest =>
    match rest with
    | [] => none
    | e :: more =>
      match letterEscape? e with
      | some c => (readEscaped long more).map fun r ↦ (c :: r.1, r.2)
      | none =>
        if long then
          match _h : joinLines? (e :: more) with
          | some next => readEscaped long next
          | none => none
        else none
  | c :: rest =>
    if mayStand long c rest then (readEscaped long rest).map fun r ↦ (c :: r.1, r.2) else none
termination_by cs => cs.length
decreasing_by
  all_goals simp only [List.length_cons]
  all_goals first
    | omega
    | (have hlt := length_joinLines?_lt (by assumption)
       simp only [List.length_cons] at hlt
       omega)

/-- The characters of a text without escapes, from after its opening quotes, and the rest. -/
def readRaw (long : Bool) : List Char → Option (List Char × List Char)
  | [] => none
  | '\'' :: '\'' :: '\'' :: rest =>
    if long then some (closing '\'' rest) else some ([], '\'' :: '\'' :: rest)
  | '\'' :: rest =>
    if long then (readRaw long rest).map fun r ↦ ('\'' :: r.1, r.2) else some ([], rest)
  | c :: rest =>
    if mayStand long c rest then (readRaw long rest).map fun r ↦ (c :: r.1, r.2) else none

/-- Without a line break at the beginning. -/
def dropBreak (cs : List Char) : List Char := (afterBreak? cs).getD cs

/-- A text in any style, where there is one. -/
def readText? : List Char → Option (Option (List Char × List Char))
  | '\x22' :: '\x22' :: '\x22' :: rest => some (readEscaped true (dropBreak rest))
  | '\x22' :: rest => some (readEscaped false rest)
  | '\'' :: '\'' :: '\'' :: rest => some (readRaw true (dropBreak rest))
  | '\'' :: rest => some (readRaw false rest)
  | _ => none

end GraphSession.Toml
