import GraphSession.Rehearsal.Scene
import GraphSession.Schedule.Flight

/-!
# Rehearsals of sessions

A rehearsal plays calls on a session in a scene, under labels, and changes the scene between them:
gates open, time goes by, servers and users do their part.
-/

namespace GraphSession

/-- Calls in flight in a scene. -/
abbrev SessionRehearsal := Flight Scene Play SessionResult

namespace SessionRehearsal

/-- The scene that the calls share. -/
def scene (r : SessionRehearsal) : Scene := r.shared

/-- The session of the scene. -/
def session (r : SessionRehearsal) : Session := r.scene.session

/-- Changes the session from outside of all calls. -/
def onSession (r : SessionRehearsal) (f : Session → Session) : SessionRehearsal :=
  r.change fun s ↦ s.onSession f

/-- Makes a call. -/
def call (r : SessionRehearsal) (label : String) (c : SessionCall) : SessionRehearsal :=
  r.launch label (.on c)

/-- Registers a task on the desk of the session and follows it. -/
def follow (r : SessionRehearsal) (label taskId : String) : SessionRehearsal :=
  let (c, d) := TaskCall.monitor r.session.desk taskId
  (r.onSession fun s ↦ s.onDesk fun _ ↦ d).call label (.task c)

/-- Opens a gate once. -/
def openGate (r : SessionRehearsal) (name : String) : SessionRehearsal :=
  r.change fun s ↦ s.onGate name Gate.opened

/-- The files in the store. -/
def listFiles (r : SessionRehearsal) : Except Failure (List FileRef) × SessionRehearsal :=
  let (_, answer, s) := r.scene.ask .files
  (answer, r.change fun _ ↦ s)

/-- Gives up a call: whether it had not returned. -/
def abort (r : SessionRehearsal) (label : String) : Bool × SessionRehearsal :=
  r.giveUp Play.machine label

/-- More turns than the calls in flight can take: each takes in the frames that are there and goes
through fewer than twenty places, and every turn brings at most every caller into the queue. -/
def turnsLeft (r : SessionRehearsal) : Nat :=
  (20 * r.callers.length + r.session.desk.connector.undelivered + 1) * (r.callers.length + 1)

/-- Lets the calls take turns until each has to wait. -/
def rest (r : SessionRehearsal) : SessionRehearsal := r.settle Play.machine r.turnsLeft

end SessionRehearsal

end GraphSession
