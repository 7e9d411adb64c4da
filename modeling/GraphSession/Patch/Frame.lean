import GraphSession.Json.Reader
import GraphSession.Patch.Apply

/-!
# Frames of a task's channel

A frame is the text of one message of a running task: patches in order, and possibly a timer
directive for a node.

**One bad part does not spoil the frame.** The outline, an array of anything under `patch` and
anything under `timer` and `node_id`, is read first, and only that can fail. Each patch is then
decoded by itself; what does not decode is kept beside the message with its cause. A timer value
that is no directive is kept as it is, and a node id that is no string is as good as none.
-/

namespace GraphSession

/-- A node starts or stops running. -/
inductive TimerDirective where
  | start | stop
  deriving DecidableEq

namespace TimerDirective

/-- What a directive is called in a message. -/
def name : TimerDirective → String
  | start => "start"
  | stop => "stop"

/-- The directive of a name, if there is one. -/
def ofName? (s : String) : Option TimerDirective := [start, stop].find? fun d ↦ d.name = s

/-- A directive as its name. -/
def encode (d : TimerDirective) : Json := .str d.name

/-- A directive from its name. -/
def decode : Decoder TimerDirective := Tree.choice ofName? ["start", "stop"]

end TimerDirective

/-- A message of a running task. -/
structure TaskMessage where
  patch : List PatchOp
  timer : Option TimerDirective
  nodeId : Option String

namespace TaskMessage

/-- A message as an object that leaves out what the message does not have. -/
def encode (m : TaskMessage) : Json :=
  .obj <|
    (if m.patch.isEmpty then [] else [("patch", .arr (m.patch.map PatchOp.encode))]) ++
    Json.fieldIfSome "timer" TimerDirective.encode m.timer ++
    Json.fieldIfSome "node_id" .str m.nodeId

/-- The strict reading, in which every part has to decode. -/
def decode : Decoder TaskMessage := fun t ↦ do
  let r ← t.record "struct TaskMessage" ["patch", "timer", "node_id"]
  r.finish <|
    TaskMessage.mk <$> r.withDefault "patch" (Tree.list PatchOp.decode) []
      <*> r.optional "timer" TimerDirective.decode
      <*> r.optional "node_id" Tree.string

/-- The text of a message, as a server would send it. -/
def text (m : TaskMessage) : String := m.encode.text

end TaskMessage

/-- A frame, with what did not decode beside the message. -/
structure Frame where
  message : TaskMessage
  rejected : List PatchFault
  /-- A timer value that is no directive. -/
  invalidTimer : Option Json

/-- The parts of a frame before they are looked at. -/
structure FrameOutline where
  patch : List Json
  timer : Option Json
  nodeId : Option Json

namespace FrameOutline

/-- The parts of a message, each as a free-form value for the time being, so that one of them that
makes no sense does not spoil the others. -/
def decode : Decoder FrameOutline := fun t ↦ do
  let r ← t.record "struct RawFrame" ["patch", "timer", "node_id"]
  r.finish <|
    FrameOutline.mk <$> r.withDefault "patch" (Tree.list Tree.freeForm) []
      <*> r.optional "timer" Tree.freeForm
      <*> r.optional "node_id" Tree.freeForm

end FrameOutline

namespace Frame

/-- The key of a value that is no patch, for the message about it. -/
def keyText : Option Json → String
  | some (.arr segments) =>
    ".".intercalate (segments.map fun j ↦ match j with | .str s => s | j => j.text)
  | some j => j.text
  | none => "<no key>"

/-- Decodes one entry of `patch` by itself. -/
def patchOf (j : Json) : Except PatchFault PatchOp :=
  (PatchOp.decode (Tree.ofJson j)).mapError fun m ↦
    .malformed (keyText (j.field? "key")) m.message

/-- The patches among the entries, and the causes for the others, each in order. -/
def sortPatches : List Json → List PatchOp × List PatchFault
  | [] => ([], [])
  | j :: rest =>
    let r := sortPatches rest
    match patchOf j with
    | .ok op => (op :: r.1, r.2)
    | .error e => (r.1, e :: r.2)

/-- A directive, or a value that is none. -/
def sortTimer : Option Json → Option TimerDirective × Option Json
  | none => (none, none)
  | some .null => (none, none)
  | some j =>
    match TimerDirective.decode (Tree.ofJson j) with
    | .ok d => (some d, none)
    | .error _ => (none, some j)

/-- The id of the node that a message is about. What is no text is taken for no id. -/
def nodeIdOf : Option Json → Option String
  | some (.str s) => some s
  | _ => none

/-- A frame from its parts: the patches and the timer that make sense, and those that do not. -/
def ofOutline (o : FrameOutline) : Frame :=
  let patches := sortPatches o.patch
  let timer := sortTimer o.timer
  { message := ⟨patches.1, timer.1, nodeIdOf o.nodeId⟩
    rejected := patches.2
    invalidTimer := timer.2 }

/-- The frame of a text; none when the text has not even the outline of one. -/
def ofText? (text : String) : Option Frame :=
  match Tree.ofText? text with
  | none => none
  | some t =>
    match FrameOutline.decode t with
    | .ok o => some (ofOutline o)
    | .error _ => none

end Frame

end GraphSession
