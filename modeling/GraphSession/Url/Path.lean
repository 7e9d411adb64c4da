import GraphSession.Text.Percent
import GraphSession.Text.Split

/-!
# Paths of URLs

A path is a list of segments, each in its encoded form. Segments come in one by one: a segment of
one dot adds nothing, a segment of two dots takes the last one away, and at the end of a path either
leaves an empty segment, so that the path ends in a slash. The dots may be written as `%2e`.

In a path of files the first segment may be a drive letter, which two dots do not take away.
-/

namespace GraphSession

/-- Whether some characters are the same but for the case of ASCII letters. -/
def sameIgnoringCase (a b : List Char) : Bool := a.map Char.toLower = b.map Char.toLower

namespace UrlPath

/-- How a dot can be spelled, in lower case. -/
def dot : List (List Char) := [['.'], ['%', '2', 'e']]

/-- Whether a segment means the place where it stands. -/
def isSingleDot (s : List Char) : Bool := dot.any fun d ↦ sameIgnoringCase d s

/-- Whether a segment means the place above. -/
def isDoubleDot (s : List Char) : Bool :=
  dot.any fun d ↦ dot.any fun e ↦ sameIgnoringCase (d ++ e) s

/-- A letter and a colon or a bar. -/
def isDrive : List Char → Bool
  | [a, b] => a.isAlpha && (b = ':' || b = '|')
  | _ => false

/-- Without the last segment; a lone drive letter of a path of files stays. -/
def shorten (files : Bool) (segments : List String) : List String :=
  match files, segments with
  | true, [s] => if isDrive s.toList then [s] else []
  | _, _ => segments.dropLast

/-- How a segment is kept: a drive letter at the beginning is written with a colon. -/
def kept (files : Bool) (segments : List String) (s : List Char) : String :=
  match files && segments.isEmpty && isDrive s, s with
  | true, a :: _ => String.ofList [a, ':']
  | _, _ => String.ofList s

/-- Takes in a segment that is encoded; `last` says that no other follows. -/
def push (files last : Bool) (segments : List String) (s : List Char) : List String :=
  if isDoubleDot s then
    if last then shorten files segments ++ [""] else shorten files segments
  else if isSingleDot s then
    if last then segments ++ [""] else segments
  else segments ++ [kept files segments s]

/-- Takes in segments to the end of the path. -/
def pushAll (files : Bool) (segments : List String) : List (List Char) → List String
  | [] => segments
  | [s] => push files true segments s
  | s :: rest => pushAll files (push files false segments s) rest

/-- What stands for itself in a path that is read. -/
def stands : UInt8 → Bool :=
  Percent.allBut [' ', '\x22', '<', '>', '\x60', '#', '?', '\x7b', '\x7d']

/-- What stands for itself in a segment that is written; a backslash only where it does not
separate segments. -/
def standsInSegment (special : Bool) (b : UInt8) : Bool :=
  stands b && !Percent.isOneOf ['/', '%'] b && !(special && Percent.isOneOf ['\\'] b)

/-- The segments of a path without its first slash. -/
def ofChars (files special : Bool) (cs : List Char) : List String :=
  let isSlash (c : Char) : Bool := c = '/' || (special && c = '\\')
  pushAll files [] ((Text.split isSlash cs).map (Percent.encodeChars stands))

/-- Each segment with a slash before it. -/
def text (segments : List String) : String := String.join (segments.map fun s ↦ "/" ++ s)

end UrlPath

end GraphSession
