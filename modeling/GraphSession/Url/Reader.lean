import GraphSession.Url.Basic
import GraphSession.Url.Domain

/-!
# Reading URLs

A text is read as the URL it stands for by itself, without another URL to complete it. Blanks and
controls at both ends are dropped, tabs and line breaks everywhere. The text is then taken apart
from the outside to the inside: scheme, fragment, query, authority and path; inside the authority
the user, the host and the port.

**Which fault wins.** The host is read before the port, so a text with a bad host and a bad port is
refused for its host; a missing scheme is noticed before anything else.
-/

namespace GraphSession

namespace UrlHost

/-- The characters that no host has, in a scheme that is not one of the web. -/
def forbidden : List Char :=
  ['\x00', '\t', '\n', '\r', ' ', '#', '/', ':', '<', '>', '?', '@', '[', '\\', ']', '^', '|']

/-- The content of brackets around the whole text. -/
def bracketed? (cs : List Char) : Option (List Char) :=
  match cs with
  | '[' :: rest => if rest.getLast? = some ']' then some rest.dropLast else none
  | _ => none

/-- A host in brackets. -/
def ofBrackets (cs : List Char) : Except UrlFault UrlHost :=
  match (bracketed? cs).bind Address.ofEight? with
  | some ns => .ok (eightPieces ns)
  | none => .error .badEightPieces

/-- The host of a scheme of the web: an address or a domain, in which escapes are resolved. -/
def ofSpecial (cs : List Char) : Except UrlFault UrlHost :=
  if cs.head? = some '[' then ofBrackets cs
  else
    match Domain.ofBytes? (Percent.decode (Utf8.encode cs)) with
    | none => .error .badDomain
    | some [] => .error .emptyHost
    | some d =>
      if Address.endsInNumber d then
        match Address.ofFour? d with
        | some n => .ok (fourBytes n)
        | none => .error .badFourBytes
      else .ok (name (String.ofList d))

/-- What stands for itself in a host of any other scheme. -/
def stands : UInt8 → Bool := Percent.allBut []

/-- The host of any other scheme: an address in brackets or any text without marks. -/
def ofOther (cs : List Char) : Except UrlFault UrlHost :=
  if cs.head? = some '[' then ofBrackets cs
  else if cs.any forbidden.contains then .error .badHostCharacter
  else if cs.isEmpty then .ok empty
  else .ok (name (String.ofList (Percent.encodeChars stands cs)))

/-- The host of a path of files, where the own host has no name. -/
def ofFiles (cs : List Char) : Except UrlFault UrlHost :=
  if cs.isEmpty then .ok empty
  else (ofSpecial cs).map fun h ↦ if h = name "localhost" then empty else h

end UrlHost

namespace Authority

/-- What stands for itself in the user and the password. -/
def userStands : UInt8 → Bool :=
  Percent.allBut [' ', '\x22', '<', '>', '\x60', '#', '?', '\x7b', '\x7d', '/', ':', ';', '=', '@',
    '[', '\\', ']', '^', '|']

/-- The characters before and after the last `@`. -/
def splitUser (cs : List Char) : Option (List Char) × List Char :=
  match cs.reverse.span (· ≠ '@') with
  | (_, []) => (none, cs)
  | (back, _ :: front) => (some front.reverse, back.reverse)

/-- The user, and the password after the first colon, if it is not empty. -/
def userOf (cs : List Char) : String × Option String :=
  let coded (part : List Char) : String := String.ofList (Percent.encodeChars userStands part)
  match Text.cutAt ':' cs with
  | (u, none) => (coded u, none)
  | (u, some []) => (coded u, none)
  | (u, some p) => (coded u, some (coded p))

/-- The host, up to the first colon that is not in brackets, and what follows it. -/
def splitHost (inside : Bool) : List Char → List Char × List Char
  | [] => ([], [])
  | c :: cs =>
    if c = ':' ∧ inside = false then ([], c :: cs)
    else
      let r := splitHost (c = '[' || (inside && c ≠ ']')) cs
      (c :: r.1, r.2)

/-- The value of some digits, unless it is no port. -/
def portValue? (digits : List Char) : Option Nat :=
  match Address.number? 10 digits with
  | some n => if n < 65536 then some n else none
  | none => none

/-- The port after a colon, if it is not the usual one, and what follows it: nothing, or a path that
begins with a backslash. -/
def portOf (usual : Option Nat) : List Char → Except UrlFault (Option Nat × List Char)
  | ':' :: cs =>
    match cs.span Char.isDigit with
    | (digits, rest) =>
      match portValue? digits with
      | none => .error .badPort
      | some n =>
        if rest.head? = none ∨ rest.head? = some '\\' then
          .ok (if digits.isEmpty ∨ usual = some n then none else some n, rest)
        else .error .badPort
  | rest => .ok (none, rest)

/-- The authority in some characters, and what of them belongs to the path. `alone` says that
nothing follows. -/
def ofChars (scheme : String) (alone : Bool) (cs : List Char) :
    Except UrlFault (Authority × List Char) :=
  let (user, hostPort) := splitUser cs
  if user = some [] ∧ hostPort = [] ∧ alone = false then .error .emptyHost
  else
    let (name, password) := userOf (user.getD [])
    let (hostText, rest) := splitHost false hostPort
    let special := Url.isSpecial scheme
    if special ∧ hostText = [] then .error .emptyHost
    else
      match if special then UrlHost.ofSpecial hostText else UrlHost.ofOther hostText with
      | .error e => .error e
      | .ok host =>
        if hostText = [] ∧ rest ≠ [] then .error .emptyHost
        else
          match portOf (Url.usualPort? scheme) rest with
          | .error e => .error e
          | .ok (port, path) =>
            let a : Authority := ⟨name, password, host, port⟩
            if hostText = [] ∧ a.userText ≠ "" then .error .emptyHost else .ok (a, path)

end Authority

namespace UrlBody

/-- Whether a character separates segments where both slashes do. -/
def isSlash (c : Char) : Bool := c = '/' || c = '\\'

/-- The path after an authority. In a scheme of the web it is never empty. -/
def segmentsAfter (special : Bool) (cs : List Char) : List String :=
  match cs with
  | [] => if special then [""] else []
  | c :: rest =>
    if c = '/' ∨ (special ∧ c = '\\') then UrlPath.ofChars false special rest
    else UrlPath.ofChars false special (c :: rest)

/-- The body after `//`, up to `stop` the authority. `alone` says that neither a query nor a
fragment follows. -/
def withAuthority (scheme : String) (alone : Bool) (stop : Char → Bool) (cs : List Char) :
    Except UrlFault UrlBody :=
  let (authority, remainder) := Text.breakAt stop cs
  match Authority.ofChars scheme (alone && remainder.isEmpty) authority with
  | .error e => .error e
  | .ok (a, more) =>
    .ok (.path (some a) (segmentsAfter (Url.isSpecial scheme) (more ++ remainder)))

/-- The path of files, without its first slash. -/
def filePath (cs : List Char) : List String :=
  let segments := UrlPath.ofChars true true cs
  match segments.dropWhile (· = "") with
  | [] => [""]
  | kept => kept

/-- An authority that names only a host. -/
def onHost (h : UrlHost) : Option Authority := some ⟨"", none, h, none⟩

/-- A path of files after a host. -/
def filesOn (h : UrlHost) (cs : List Char) : UrlBody :=
  let inner := match cs with
    | [] => []
    | c :: rest => if isSlash c then rest else c :: rest
  let segments := filePath inner
  match segments with
  | s :: _ => .path (onHost (if UrlPath.isDrive s.toList then .empty else h)) segments
  | [] => .path (onHost h) segments

/-- The body of a URL of files. -/
def ofFiles (cs : List Char) : Except UrlFault UrlBody :=
  match cs with
  | a :: b :: rest =>
    if isSlash a ∧ isSlash b then
      let (host, remainder) := Text.breakAt isSlash rest
      if UrlPath.isDrive host then .ok (filesOn .empty rest)
      else (UrlHost.ofFiles host).map fun h ↦ filesOn h remainder
    else .ok (filesOn .empty cs)
  | _ => .ok (filesOn .empty cs)

/-- What stands for itself in a text without segments. -/
def stands : UInt8 → Bool := Percent.allBut []

/-- The body of a URL whose scheme is not one of the web. -/
def ofOther (scheme : String) (alone : Bool) : List Char → Except UrlFault UrlBody
  | '/' :: '/' :: rest => withAuthority scheme alone (· = '/') rest
  | '/' :: rest => .ok (.path none (UrlPath.ofChars false false rest))
  | cs => .ok (.plain (String.ofList (Percent.encodeChars stands cs)))

/-- What follows the scheme, read as the scheme asks. -/
def ofChars (scheme : String) (alone : Bool) (cs : List Char) : Except UrlFault UrlBody :=
  if scheme = "file" then ofFiles cs
  else if Url.isSpecial scheme then withAuthority scheme alone isSlash (cs.dropWhile isSlash)
  else ofOther scheme alone cs

end UrlBody

namespace Url

/-- Blanks and controls of ASCII. -/
def isEdge (c : Char) : Bool := c.toNat ≤ 0x20

/-- The text without what is dropped from it. -/
def clean (cs : List Char) : List Char :=
  let inner := ((cs.dropWhile isEdge).reverse.dropWhile isEdge).reverse
  inner.filter fun c ↦ c ≠ '\t' && c ≠ '\n' && c ≠ '\r'

/-- Whether a character may stand in a scheme after the first letter. -/
def isSchemeChar (c : Char) : Bool := c.isAlphanum || c = '+' || c = '-' || c = '.'

/-- The scheme before the first colon, in lower case, and what follows it. -/
def splitScheme? (cs : List Char) : Option (String × List Char) :=
  match cs with
  | [] => none
  | c :: _ =>
    if c.isAlpha then
      match cs.span isSchemeChar with
      | (scheme, ':' :: rest) => some (String.ofList (scheme.map Char.toLower), rest)
      | _ => none
    else none

/-- What stands for itself in a query; a quote only outside the schemes of the web. -/
def queryStands (special : Bool) (b : UInt8) : Bool :=
  Percent.allBut [' ', '\x22', '#', '<', '>'] b && !(special && Percent.isOneOf ['\''] b)

/-- What stands for itself in a fragment. -/
def fragmentStands : UInt8 → Bool := Percent.allBut [' ', '\x22', '<', '>', '\x60']

/-- The URL that a text stands for. -/
def ofText (s : String) : Except UrlFault Url :=
  match splitScheme? (clean s.toList) with
  | none => .error .noScheme
  | some (scheme, rest) =>
    let (beforeFragment, fragment) := Text.cutAt '#' rest
    let (body, query) := Text.cutAt '?' beforeFragment
    let coded (stands : UInt8 → Bool) (cs : List Char) : String :=
      String.ofList (Percent.encodeChars stands cs)
    match UrlBody.ofChars scheme (query.isNone && fragment.isNone) body with
    | .error e => .error e
    | .ok b =>
      .ok
        { scheme := scheme
          body := b
          query := query.map (coded (queryStands (isSpecial scheme)))
          fragment := fragment.map (coded fragmentStands) }

end Url

end GraphSession
