import GraphSession.Text.Blank

/-!
# Moments

A moment is a point of UTC time with nanoseconds: a day, a second of that day, and nanoseconds. A
leap second is written as second 60 and kept as nanoseconds past the full second, so the second of
the day always stays below 86400.

**Days and dates.** `dayOfDate` counts days from 1970-01-01 in the proleptic Gregorian calendar and
`dateOfDay` is its inverse. Both count years from March, where the leap day is the last of the year
and month lengths follow one linear rule.

**Text.** `Moment.text` writes UTC with a `Z`, and no fraction or three, six or nine digits of it,
the fewest that lose nothing. `Moment.ofText?` is far more lenient than that: numbers may be short,
blanks may stand before every part, the offset may leave out its colon.
-/

namespace GraphSession

/-- A point of UTC time. -/
structure Moment where
  /-- Days since 1970-01-01. -/
  day : Int
  /-- Seconds of the day, below 86400. -/
  second : Nat
  /-- Nanoseconds; from `10 ^ 9` on, of a leap second. -/
  nano : Nat
  deriving DecidableEq, Inhabited

/-- A date of the proleptic Gregorian calendar. -/
structure Date where
  year : Int
  month : Nat
  day : Nat
  deriving DecidableEq

namespace Date

/-- A year with a 29th of February in the Gregorian calendar, which also counts for the time before
it. -/
def isLeap (year : Int) : Bool := year % 4 = 0 && (year % 100 ≠ 0 || year % 400 = 0)

/-- The length of a month, whose number is from one to twelve. -/
def daysInMonth (year : Int) (month : Nat) : Nat :=
  if month = 2 then (if isLeap year then 29 else 28)
  else if month = 4 ∨ month = 6 ∨ month = 9 ∨ month = 11 then 30 else 31

/-- The years that dates are kept for. -/
def leastYear : Int := -262143

/-- The last year that a moment can lie in. -/
def greatestYear : Int := 262142

/-- The date is a day of the calendar, within the years that there are. -/
def valid (d : Date) : Bool :=
  leastYear ≤ d.year && d.year ≤ greatestYear && 1 ≤ d.month && d.month ≤ 12 &&
    1 ≤ d.day && d.day ≤ daysInMonth d.year d.month

/-- Days from the start of a March year to the first of its month, March being month zero. -/
def marchOffset (m : Nat) : Nat := (153 * m + 2) / 5

/-- Days since 1970-01-01. -/
def dayOfDate (d : Date) : Int :=
  let y := if d.month ≤ 2 then d.year - 1 else d.year
  let m := (d.month + 9) % 12
  let era := y / 400
  let yearOfEra := y - era * 400
  let dayOfYear : Int := marchOffset m + d.day - 1
  era * 146097 + yearOfEra * 365 + yearOfEra / 4 - yearOfEra / 100 + dayOfYear - 719468

/-- The date of a day since 1970-01-01. -/
def dateOfDay (day : Int) : Date :=
  let z := day + 719468
  let era := z / 146097
  let dayOfEra := z - era * 146097
  let yearOfEra := (dayOfEra - dayOfEra / 1460 + dayOfEra / 36524 - dayOfEra / 146096) / 365
  let dayOfYear := (dayOfEra - (365 * yearOfEra + yearOfEra / 4 - yearOfEra / 100)).toNat
  let m := (5 * dayOfYear + 2) / 153
  let month := if m < 10 then m + 3 else m - 9
  let year := yearOfEra + era * 400
  ⟨if month ≤ 2 then year + 1 else year, month, dayOfYear - marchOffset m + 1⟩

end Date

namespace Moment

/-- The length of a day. A leap second is counted within the second before it. -/
def secondsPerDay : Nat := 86400

/-- The length of a second. -/
def nanosPerSecond : Nat := 1000000000

/-- The moment at which a clock so many seconds ahead of UTC shows a date and a second of the
day. -/
def ofLocal? (d : Date) (second nano : Nat) (ahead : Int) : Option Moment :=
  let utc : Int := second - ahead
  let day := Date.dayOfDate d + utc / secondsPerDay
  if (Date.dateOfDay day).valid then some ⟨day, (utc % secondsPerDay).toNat, nano⟩ else none

/-! ### Writing -/

/-- A number with at least so many digits. -/
def padded (width n : Nat) : List Char :=
  let ds := Nat.toDigits 10 n
  List.replicate (width - ds.length) '0' ++ ds

/-- A year of four digits, or one with a sign outside of those. -/
def yearText (y : Int) : List Char :=
  if 0 ≤ y ∧ y ≤ 9999 then padded 4 y.toNat
  else (if y < 0 then '-' else '+') :: padded 4 y.natAbs

/-- The part of a second in as few groups of three digits as it needs, or nothing at all. -/
def fractionText (nano : Nat) : List Char :=
  if nano = 0 then []
  else if nano % 1000000 = 0 then '.' :: padded 3 (nano / 1000000)
  else if nano % 1000 = 0 then '.' :: padded 6 (nano / 1000)
  else '.' :: padded 9 nano

/-- A moment in universal time, with the fraction only if there is one. A leap second is the
sixtieth of its minute. -/
def write (m : Moment) : List Char :=
  let d := Date.dateOfDay m.day
  let leap := m.nano / nanosPerSecond
  yearText d.year ++ '-' :: (padded 2 d.month ++ '-' :: (padded 2 d.day ++ 'T' ::
    (padded 2 (m.second / 3600) ++ ':' :: (padded 2 (m.second / 60 % 60) ++ ':' ::
      (padded 2 (m.second % 60 + leap) ++ (fractionText (m.nano % nanosPerSecond) ++ ['Z']))))))

/-- The text of a moment, as it stands in every document. -/
def text (m : Moment) : String := String.ofList m.write

/-! ### Reading -/

open Text (trimStart)

/-- The number that decimal digits stand for; other characters are not expected. -/
def naturalOfChars (cs : List Char) : Nat := cs.foldl (fun n c ↦ 10 * n + (c.toNat - 48)) 0

/-- Up to `most` digits, at least one. -/
def readNumber (most : Nat) (cs : List Char) : Option (Nat × List Char) :=
  let ds := (cs.take most).takeWhile Char.isDigit
  if ds = [] then none else some (naturalOfChars ds, cs.drop ds.length)

/-- One given character. -/
def expect (c : Char) : List Char → Option (List Char)
  | c' :: rest => if c' = c then some rest else none
  | [] => none

/-- A year: four digits at most, or any number of them after a sign. -/
def readYear (cs : List Char) : Option (Int × List Char) :=
  match trimStart cs with
  | '-' :: rest => (readNumber rest.length rest).map fun r ↦ (-(r.1 : Int), r.2)
  | '+' :: rest => (readNumber rest.length rest).map fun r ↦ ((r.1 : Int), r.2)
  | cs => (readNumber 4 cs).map fun r ↦ ((r.1 : Int), r.2)

/-- A number of at most two digits, with blanks around it. -/
def readPair (cs : List Char) : Option (Nat × List Char) :=
  (readNumber 2 (trimStart cs)).map fun r ↦ (r.1, trimStart r.2)

/-- Digits after a point as nanoseconds; those past the ninth count for nothing. -/
def readNano (cs : List Char) : Option (Nat × List Char) :=
  match cs with
  | '.' :: rest =>
    let ds := rest.takeWhile Char.isDigit
    if ds = [] then none
    else
      let kept := ds.take 9
      some (naturalOfChars kept * Nat.pow 10 (9 - kept.length), rest.drop ds.length)
  | _ => some (0, cs)

/-- The hours and minutes of an offset after its sign, in seconds. -/
def readOffsetSize (cs : List Char) : Option (Nat × List Char) :=
  match cs with
  | a :: b :: rest =>
    if a.isDigit ∧ b.isDigit then
      match rest.dropWhile (fun c ↦ c = ':' || Text.isBlank c) with
      | c :: d :: rest =>
        if c.isDigit ∧ d.isDigit ∧ c < '6' then
          some (naturalOfChars [a, b] * 3600 + naturalOfChars [c, d] * 60, rest)
        else none
      | _ => none
    else none
  | _ => none

/-- How many seconds a clock is ahead of UTC: `Z`, `UTC` or a signed offset, whose sign may also be
the minus sign proper. -/
def readOffset (cs : List Char) : Option (Int × List Char) :=
  match cs with
  | 'Z' :: rest | 'z' :: rest => some (0, rest)
  | '+' :: rest => (readOffsetSize rest).map fun r ↦ ((r.1 : Int), r.2)
  | '-' :: rest | '\u2212' :: rest => (readOffsetSize rest).map fun r ↦ (-(r.1 : Int), r.2)
  | u :: t :: c :: rest =>
    if u.toUpper = 'U' ∧ t.toUpper = 'T' ∧ c.toUpper = 'C' then some (0, rest) else none
  | _ => none

/-- What separates the date from the time. -/
def readSeparator : List Char → Option (List Char)
  | 'T' :: rest | 't' :: rest | ' ' :: rest => some rest
  | _ => none

/-- Reads a moment leniently: blanks may stand before some numbers, a blank may separate date and
time, and the offset may be spelled in several ways. All that was given has to be read. -/
def ofChars? (cs : List Char) : Option Moment := do
  let (year, cs) ← readYear cs
  let cs ← expect '-' (trimStart cs)
  let (month, cs) ← readPair cs
  let cs ← expect '-' cs
  let (day, cs) ← readNumber 2 (trimStart cs)
  let cs ← readSeparator cs
  let (hour, cs) ← readPair cs
  let cs ← expect ':' cs
  let (minute, cs) ← readPair cs
  let cs ← expect ':' cs
  let (second, cs) ← readNumber 2 (trimStart cs)
  let (nano, cs) ← readNano cs
  let (ahead, cs) ← readOffset (trimStart cs)
  let date : Date := ⟨year, month, day⟩
  if trimStart cs = [] ∧ date.valid ∧ hour < 24 ∧ minute < 60 ∧ second ≤ 60 ∧
      ahead.natAbs < secondsPerDay then
    let leap := second / 60
    ofLocal? date (hour * 3600 + minute * 60 + (second - leap)) (nano + leap * nanosPerSecond) ahead
  else none

/-- The moment that a text spells, if it spells one. -/
def ofText? (s : String) : Option Moment := ofChars? s.toList

end Moment

end GraphSession
