import GraphSession.Url.Address
import GraphSession.Url.Path

/-!
# URLs

A URL is kept in the form in which it is written: every part is encoded already, the scheme and a
domain are in lower case, the port is left out where it is the usual one of the scheme.

**Two kinds of path.** A path of segments can be extended. A URL such as `mailto:x` has a body
instead, which is one text and has no segments.
-/

namespace GraphSession

/-- Why a text is no URL. -/
inductive UrlFault where
  | emptyHost | badDomain | badPort | badFourBytes | badEightPieces | badHostCharacter | noScheme
  deriving DecidableEq

namespace UrlFault

/-- What is shown of a text that is no address. -/
def message : UrlFault → String
  | emptyHost => "empty host"
  | badDomain => "invalid international domain name"
  | badPort => "invalid port number"
  | badFourBytes => "invalid IPv4 address"
  | badEightPieces => "invalid IPv6 address"
  | badHostCharacter => "invalid domain character"
  | noScheme => "relative URL without a base"

end UrlFault

/-- Where a URL points to. -/
inductive UrlHost where
  | empty
  | name (text : String)
  | fourBytes (n : Nat)
  | eightPieces (pieces : List Nat)
  deriving DecidableEq

namespace UrlHost

/-- A host as it is written in an address. -/
def text : UrlHost → String
  | empty => ""
  | name s => s
  | fourBytes n => String.ofList (Address.fourText n)
  | eightPieces ns => "[" ++ String.ofList (Address.eightText ns) ++ "]"

end UrlHost

/-- What stands between the two slashes and the path. -/
structure Authority where
  user : String
  password : Option String
  host : UrlHost
  port : Option Nat
  deriving DecidableEq

namespace Authority

/-- A port as it is written in an address. -/
def portText : Option Nat → String
  | none => ""
  | some n => ":" ++ String.ofList (Nat.toDigits 10 n)

/-- The user and the password, if there is any of them. -/
def userText (a : Authority) : String :=
  match a.password with
  | some p => a.user ++ ":" ++ p ++ "@"
  | none => if a.user.isEmpty then "" else a.user ++ "@"

/-- An authority as it is written in an address: user, host and port. -/
def text (a : Authority) : String := a.userText ++ a.host.text ++ portText a.port

end Authority

/-- What comes after the scheme and the authority. -/
inductive UrlBody where
  /-- A text without segments; there is no authority then. -/
  | plain (text : String)
  | path (authority : Option Authority) (segments : List String)
  deriving DecidableEq

namespace UrlBody

/-- A path that begins with two slashes and has no authority before it is set off by `/.`. -/
def needsDot : List String → Bool
  | "" :: _ :: _ => true
  | _ => false

/-- What follows the scheme, as it is written. -/
def text : UrlBody → String
  | plain s => s
  | path (some a) segments => "//" ++ a.text ++ UrlPath.text segments
  | path none segments =>
    (if needsDot segments then "/." else "") ++ UrlPath.text segments

end UrlBody

/-- An address that was read, in the form in which it is written. -/
structure Url where
  scheme : String
  body : UrlBody
  query : Option String
  fragment : Option String
  deriving DecidableEq

namespace Url

/-- A part that is written after a mark, if it is there. -/
def marked (mark : String) : Option String → String
  | none => ""
  | some s => mark ++ s

/-- The text of an address. -/
def text (u : Url) : String :=
  u.scheme ++ ":" ++ u.body.text ++ marked "?" u.query ++ marked "#" u.fragment

/-- The schemes of the web, with the usual port of each. -/
def specialPorts : List (String × Option Nat) :=
  [("http", some 80), ("https", some 443), ("ws", some 80), ("wss", some 443), ("ftp", some 21),
   ("file", none)]

/-- Whether a scheme always has an authority, and takes a backslash for a slash. -/
def isSpecial (scheme : String) : Bool := (specialPorts.lookup scheme).isSome

/-- The usual port of a scheme. -/
def usualPort? (scheme : String) : Option Nat := (specialPorts.lookup scheme).join

/-- The segments of the path, unless the body is a text without structure. -/
def segments? (u : Url) : Option (List String) :=
  match u.body with
  | .plain _ => none
  | .path _ segments => some segments

/-- Puts a segment at the end of a path; an empty path of one slash is replaced. -/
def pushSegment (u : Url) (segments : List String) (s : String) : List String :=
  let shown := s.toList.filter fun c ↦ c ≠ '\t' && c ≠ '\n' && c ≠ '\r'
  UrlPath.push (u.scheme = "file") true (if segments = [""] then [] else segments)
    (Percent.encodeChars (UrlPath.standsInSegment (isSpecial u.scheme)) shown)

/-- Extends a path by values, each as one segment. A value of one or two dots adds nothing. -/
def pushSegments (u : Url) (segments : List String) : List String → List String
  | [] => segments
  | s :: rest =>
    pushSegments u (if s = "." ∨ s = ".." then segments else u.pushSegment segments s) rest

/-- Without an empty segment at the end, unless it is the only one. -/
def withoutLastEmpty (segments : List String) : List String :=
  if segments.length ≤ 1 then segments
  else if segments.getLast? = some "" then segments.dropLast
  else segments

/-- Extends the path by values, after a slash that the path may already end in. None for a URL
without segments. -/
def extend? (u : Url) (values : List String) : Option Url :=
  match u.body with
  | .plain _ => none
  | .path a segments =>
    some { u with body := .path a (u.pushSegments (withoutLastEmpty segments) values) }

/-- Adds a pair to the query. -/
def addPair (u : Url) (name value : String) : Url :=
  let pair := String.ofList (Percent.formValue name ++ '=' :: Percent.formValue value)
  { u with
    query := match u.query with
      | none => some pair
      | some q => some (if q.isEmpty then pair else q ++ "&" ++ pair) }

/-- What is asked for on a host: the path and the query. -/
def target (u : Url) : String :=
  (match u.body with
    | .plain s => s
    | .path _ segments => if segments.isEmpty then "/" else UrlPath.text segments) ++
  marked "?" u.query

end Url

end GraphSession
