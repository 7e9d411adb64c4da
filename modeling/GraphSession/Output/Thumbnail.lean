import GraphSession.Text.Base64

/-!
# Thumbnails

The picture of a graph is kept in its project as a data URL: a fixed head and the bytes of the image
in base 64. Any other head, also another spelling of the same type, is no thumbnail.
-/

namespace GraphSession.Thumbnail

/-- What every thumbnail begins with. -/
def head : List Char := "data:image/png;base64,".toList

/-- The data URL of an image. -/
def url (png : List UInt8) : String := String.ofList (head ++ Base64.encode png)

/-- The rest of a text that begins with the given one. -/
def after? : List Char → List Char → Option (List Char)
  | [], cs => some cs
  | _ :: _, [] => none
  | h :: hs, c :: cs => if h = c then after? hs cs else none

/-- The image in a data URL. -/
def ofUrl? (s : String) : Option (List UInt8) := (after? head s.toList).bind Base64.decode?

end GraphSession.Thumbnail
