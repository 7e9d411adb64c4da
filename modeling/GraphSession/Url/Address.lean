import GraphSession.Text.Split

/-!
# Addresses

A host that ends in a number is an address of four bytes: one to four parts, each decimal, octal
after a `0` or hexadecimal after a `0x`, the last of which fills what the others leave. A host in
brackets is an address of eight pieces: hexadecimal groups, of which one run of zeros may be left
out as `::`, and the last two of which may be written as four bytes.

Writing is canonical: four decimal bytes, or lower-case groups with the first longest run of at
least two zeros left out.
-/

namespace GraphSession.Address

open Text

/-- The value of a digit of a base up to sixteen. -/
def digitValue? (c : Char) : Option Nat :=
  if c.isDigit then some (c.toNat - 48)
  else if 'a' ≤ c ∧ c ≤ 'f' then some (c.toNat - 87)
  else if 'A' ≤ c ∧ c ≤ 'F' then some (c.toNat - 55)
  else none

/-- A number in some base, of any length. -/
def number? (base : Nat) : List Char → Option Nat
  | cs => cs.foldl (fun acc c ↦
      match acc, digitValue? c with
      | some n, some d => if d < base then some (n * base + d) else none
      | _, _ => none) (some 0)

/-- One part of an address of four bytes. -/
def part? : List Char → Option Nat
  | [] => none
  | '0' :: 'x' :: rest => number? 16 rest
  | '0' :: 'X' :: rest => number? 16 rest
  | ['0'] => some 0
  | '0' :: rest => number? 8 rest
  | cs => number? 10 cs

/-- The parts of a host, without an empty one at its end. -/
def hostParts (cs : List Char) : List (List Char) :=
  let parts := splitAt '.' cs
  match parts.getLast? with
  | some [] => parts.dropLast
  | _ => parts

/-- Whether a host has to be an address. -/
def endsInNumber (cs : List Char) : Bool :=
  match (hostParts cs).getLast? with
  | none => false
  | some last => (!last.isEmpty && last.all Char.isDigit) || (part? last).isSome

/-- The values of all parts. -/
def partValues? : List (List Char) → Option (List Nat)
  | [] => some []
  | p :: rest =>
    match part? p, partValues? rest with
    | some n, some ns => some (n :: ns)
    | _, _ => none

/-- An address of four bytes as one number. -/
def ofFour? (cs : List Char) : Option Nat :=
  let parts := hostParts cs
  if 4 < parts.length then none
  else
    match partValues? parts with
    | none => none
    | some ns =>
      match ns.getLast? with
      | none => none
      | some last =>
        let front := ns.dropLast
        if front.all (· ≤ 255) ∧ last < Nat.pow 256 (4 - front.length) then
          some (front.foldr (fun n acc ↦ acc / 256 + n * Nat.pow 256 3) 0 + last)
        else none

/-- The decimal digits of a number. -/
def decimal (n : Nat) : List Char := Nat.toDigits 10 n

/-- Four decimal bytes. -/
def fourText (n : Nat) : List Char :=
  decimal (n / Nat.pow 256 3) ++ '.' :: (decimal (n / Nat.pow 256 2 % 256) ++ '.' ::
    (decimal (n / 256 % 256) ++ '.' :: decimal (n % 256)))

/-- One byte in decimal, without a leading zero. -/
def byte? : List Char → Option Nat
  | [] => none
  | ['0'] => some 0
  | '0' :: _ => none
  | cs =>
    if cs.all Char.isDigit then
      match number? 10 cs with
      | some n => if n ≤ 255 then some n else none
      | none => none
    else none

/-- Four bytes at the end of an address of eight pieces. -/
def tailPieces? (cs : List Char) : Option (List Nat) :=
  match (splitAt '.' cs).map byte? with
  | [some a, some b, some c, some d] => some [a * 256 + b, c * 256 + d]
  | _ => none

/-- One group of up to four hexadecimal digits. -/
def group? (cs : List Char) : Option Nat :=
  if cs.isEmpty ∨ 4 < cs.length then none else number? 16 cs

/-- The pieces of groups; where the address ends, the last group may be four bytes. -/
def groups? (atEnd : Bool) : List (List Char) → Option (List Nat)
  | [] => some []
  | [g] =>
    match group? g with
    | some n => some [n]
    | none => if atEnd then tailPieces? g else none
  | g :: rest =>
    match group? g, groups? atEnd rest with
    | some n, some ns => some (n :: ns)
    | _, _ => none

/-- The pieces on one side of `::`. -/
def side? (atEnd : Bool) (cs : List Char) : Option (List Nat) :=
  if cs.isEmpty then some [] else groups? atEnd (splitAt ':' cs)

/-- The characters before and after the first `::`. -/
def splitDouble : List Char → Option (List Char × List Char)
  | ':' :: ':' :: rest => some ([], rest)
  | c :: rest => (splitDouble rest).map fun r ↦ (c :: r.1, r.2)
  | [] => none

/-- The eight pieces of an address. -/
def ofEight? (cs : List Char) : Option (List Nat) :=
  match splitDouble cs with
  | none =>
    match side? true cs with
    | some ns => if ns.length = 8 then some ns else none
    | none => none
  | some (a, b) =>
    match side? false a, side? true b with
    | some ns, some ms =>
      if ns.length + ms.length ≤ 7 then
        some (ns ++ List.replicate (8 - ns.length - ms.length) 0 ++ ms)
      else none
    | _, _ => none

/-- How many zeros a list begins with. -/
def zeros (ns : List Nat) : Nat := (ns.takeWhile (· = 0)).length

/-- The place and the length of the first longest run of zeros. -/
def longestRun (place : Nat) (best : Nat × Nat) : List Nat → Nat × Nat
  | [] => best
  | n :: rest =>
    let here := zeros (n :: rest)
    longestRun (place + 1) (if best.2 < here then (place, here) else best) rest

/-- Groups in hexadecimal digits, with colons between them. -/
def groupsText (ns : List Nat) : List Char :=
  List.intercalate [':'] (ns.map (Nat.toDigits 16))

/-- Eight groups, with the first longest run of at least two zeros left out. -/
def eightText (ns : List Nat) : List Char :=
  let run := longestRun 0 (0, 0) ns
  if run.2 < 2 then groupsText ns
  else groupsText (ns.take run.1) ++ ':' :: ':' :: groupsText (ns.drop (run.1 + run.2))

end GraphSession.Address
