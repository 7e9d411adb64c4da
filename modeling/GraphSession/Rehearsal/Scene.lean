import GraphSession.Rehearsal.Gate
import GraphSession.Rehearsal.Script
import GraphSession.Session.Calls

/-!
# Scenes

A scene is a session among others who answer it by scripts. A request is answered by the script that
is next when it is made, even if the answer has to wait at a gate then.
-/

namespace GraphSession

/-- A session, and all that answers it: gates, scripts for others, and what was asked of them so
far. -/
structure Scene where
  session : Session
  gates : Gates
  /-- One for each submission still to come. -/
  backend : List BackendScript
  /-- One for each picture still to come; there may be no camera at all. -/
  camera : Option (List CameraScript)
  /-- By storage key, or by file name for uploads. -/
  files : List (String × FileScript)
  /-- By data handle. -/
  views : List (String × ViewScript)
  /-- All requests so far. -/
  asked : List Request

namespace Scene

/-- Changes the session alone. -/
def onSession (s : Scene) (f : Session → Session) : Scene := { s with session := f s.session }

/-- Changes the gate of a name. -/
def onGate (s : Scene) (name : String) (f : Gate → Gate) : Scene :=
  { s with gates := s.gates.modify name f }

/-- The script of a file, which is the plain one if it was given none. -/
def file (s : Scene) (name : String) : FileScript := (s.files.lookup name).getD .plain

/-- The script of an output, which is the plain one if it was given none. -/
def viewOf (s : Scene) (handle : DataHandle) : ViewScript := (s.views.lookup handle).getD .plain

/-- The script that is next, and the scripts after it. -/
def nextScript {α : Type} (last : α) : List α → α × List α
  | [] => (last, [])
  | a :: rest => (a, rest)

/-- The answer to a request, with the gate it waits at. -/
def answer (s : Scene) : (r : Request) → Option String × Except Failure r.Answer × Scene
  | .thumbnail =>
    match s.camera with
    | none => (none, .ok none, s)
    | some scripts =>
      let (c, rest) := nextScript .last scripts
      (c.gate, c.picture, { s with camera := some rest })
  | .submission p =>
    let (b, rest) := nextScript .last s.backend
    (b.gate, b.answerTo p, { s with backend := rest })
  | .files => (none, .ok [], s)
  | .content key => ((s.file key).gate, (s.file key).content key, s)
  | .upload _ nodeId filename bytes =>
    ((s.file filename).gate, (s.file filename).stored nodeId filename bytes, s)
  | .deletion key => (none, (s.file key).deleted, s)
  | .view handle => ((s.viewOf handle).gate, (s.viewOf handle).shown handle, s)

/-- Makes a request. -/
def ask (s : Scene) (r : Request) : Option String × Except Failure r.Answer × Scene :=
  { s with asked := s.asked ++ [r] }.answer r

end Scene

/-- A call in a scene. -/
inductive Play where
  | on (c : SessionCall)
  /-- Has asked, and waits at a gate before it goes on. -/
  | behind (gate : String) (ticket : Nat) (c next : SessionCall)

/-- A turn of a call in a scene. -/
abbrev PlayTurn := Turn Scene Play SessionResult

namespace Play

/-- Asks a question. -/
def turnQuestion (s : Scene) (c : SessionCall) (q : Question SessionCall) : PlayTurn :=
  match s.ask q.request with
  | (none, a, s) => .moves s (.on (q.resume a))
  | (some gate, a, s) =>
    let (ticket, gates) := s.gates.arrive gate
    .moves { s with gates := gates } (.behind gate ticket c (q.resume a))

/-- A turn of a call: it asks if it has a question, goes through its gate if it may, and otherwise
does what it does on the session. -/
def turn (s : Scene) : Play → PlayTurn
  | on c =>
    match c.question? with
    | some q => turnQuestion s c q
    | none => (c.turn s.session).map (fun t ↦ { s with session := t }) .on id
  | behind gate ticket _ next =>
    if (s.gates.named gate).lets ticket then .moves (s.onGate gate fun g ↦ g.pass ticket) (.on next)
    else .waits

/-- Gives up a call, which also leaves its gate. -/
def abandon (s : Scene) : Play → Scene
  | on c => s.onSession fun t ↦ c.abandon t
  | behind gate ticket c _ =>
    (s.onGate gate fun g ↦ g.leave ticket).onSession fun t ↦ c.abandon t

/-- Calls in scenes, for a flight. -/
def machine : Machine Scene Play SessionResult := ⟨turn, abandon⟩

end Play

end GraphSession
