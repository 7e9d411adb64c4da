import GraphSession.Json.Reader
import GraphSession.Output.Thumbnail
import GraphSession.Output.Wire
import GraphSession.Session.Question
import GraphSession.Text.Utf8

/-!
# Scripts

A script says how somebody outside of a session answers one request: after which gate, and with
what. A failure that a script names comes before everything else it says.
-/

namespace GraphSession

/-- What every script may say. -/
structure Cue where
  /-- The gate to wait at before the answer. -/
  gate : Option String
  failure : Option Failure

namespace Cue

/-- Without a gate and without a failure. -/
def plain : Cue := ⟨none, none⟩

/-- The failure, or what is answered otherwise. -/
def answer {α : Type} (c : Cue) (a : Except Failure α) : Except Failure α :=
  match c.failure with
  | some f => .error f
  | none => a

end Cue

/-- What a backend says to a submission. -/
inductive BackendLine where
  /-- The submitted project, with an error in its workflow. -/
  | echo (error : String)
  /-- The text of an answer. -/
  | text (s : String)

namespace BackendLine

/-- What the line makes of a submitted project; a text that is no reply is a failure. -/
def answer (p : Project) : BackendLine → Except Failure SubmitReply
  | echo error => .ok (.done { p with workflow := { p.workflow with error := some error } })
  | text s =>
    match (Tree.ofText? s).map SubmitReply.decode with
    | some (.ok r) => .ok r
    | _ => .error .serialization

end BackendLine

/-- What a backend does about one submission. -/
structure BackendScript extends Cue where
  line : BackendLine

namespace BackendScript

/-- What a backend says after all its scripts. -/
def last : BackendScript := ⟨.plain, .text "\x7b\x7d"⟩

/-- The answer to a submitted project. -/
def answerTo (b : BackendScript) (p : Project) : Except Failure SubmitReply :=
  b.answer (b.line.answer p)

end BackendScript

/-- What a camera does about one picture. -/
structure CameraScript extends Cue where
  /-- The image, if there is one. -/
  png : Option (List UInt8)

namespace CameraScript

/-- What a camera does after all its scripts. -/
def last : CameraScript := ⟨.plain, none⟩

/-- The picture as a data URL, if there is an image. -/
def picture (c : CameraScript) : Except Failure (Option String) :=
  c.answer (.ok (c.png.map Thumbnail.url))

end CameraScript

/-- What a store does about one file. -/
structure FileScript extends Cue where
  structured : Option Json
  /-- Why a delete fails. -/
  deletion : Option Failure

namespace FileScript

/-- A file that has no script. -/
def plain : FileScript := ⟨.plain, none, none⟩

/-- The content under a key, which is the key itself if the script does not say. -/
def content (f : FileScript) (key : String) : Except Failure FileContent :=
  f.answer (.ok ((f.structured.map .structured).getD (.bytes (Utf8.bytesOf key))))

/-- The stored file after an upload. -/
def stored (f : FileScript) (nodeId filename : String) (bytes : List UInt8) :
    Except Failure FileRef :=
  f.answer (.ok ⟨nodeId ++ "/" ++ filename, filename, bytes.length⟩)

/-- The answer to a delete, for which there is no gate. -/
def deleted (f : FileScript) : Except Failure Unit :=
  match f.deletion with
  | some e => .error e
  | none => .ok ()

end FileScript

/-- What is shown of one output. -/
structure ViewScript extends Cue where
  view : Option Tree

namespace ViewScript

/-- An output that has no script. -/
def plain : ViewScript := ⟨.plain, none⟩

/-- The view of a handle, which is the handle itself as a text if the script does not say. -/
def shown (v : ViewScript) (handle : DataHandle) : Except Failure OutputView :=
  v.answer <|
    match v.view with
    | none => .ok (.str handle)
    | some t =>
      match OutputView.decode t with
      | .ok view => .ok view
      | .error _ => .error .serialization

end ViewScript

end GraphSession
