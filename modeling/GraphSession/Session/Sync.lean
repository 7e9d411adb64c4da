import GraphSession.Session.Basic
import GraphSession.Session.Question
import GraphSession.Task.Monitor

/-!
# Syncs

A sync submits the graph and streams the results back:

1. it forgets results that nothing refers to, and takes a snapshot of the graph;
2. it asks for a picture, which may fail without harm;
3. with the lock, it ends the task of the sync before it, puts the snapshot into the project and
   submits the project;
4. without the lock, it follows the task that the backend has started, if it did;
5. with the lock again, it writes the project back into the graph, unless a later sync has had the
   lock meanwhile.

**The task before has to end first.** It would go on writing to the project otherwise, into a
workflow that is not its own. So step 3 tells it to end and waits until it has.

**Nobody follows a task with the lock in hand,** since the next sync could not end it then. But the
task is registered before the lock is given up, so that the next sync finds it.

**A sync that was overtaken ends quietly.** Cancelling its task is no failure of the sync, and
neither graph nor status are its own any more.
-/

namespace GraphSession

/-- Where a sync has got to. -/
inductive SyncStage where
  | called
  /-- Waits for the picture. -/
  | capturing (w : Workflow)
  | captured (w : Workflow) (picture : Except Failure (Option String))
  /-- Waits for the lock. -/
  | queued (ticket : Nat) (w : Workflow) (picture : Option String)
  /-- Has the lock, and waits for the task before to end. -/
  | stopping (ticket generation : Nat) (w : Workflow) (picture : Option String)
      (before : Option Nat)
  /-- Has the lock, and waits for the backend. -/
  | submitting (ticket generation : Nat) (p : Project)
  | answered (ticket generation : Nat) (reply : Except Failure SubmitReply)
  | following (generation : Nat) (m : Monitor)
  /-- Waits for the lock again, with what became of its task. -/
  | returning (ticket generation : Nat) (outcome : Option Monitor.Outcome)

/-- A turn of a sync. -/
abbrev SyncTurn := Turn Session SyncStage (Except Failure Unit)

namespace SyncStage

/-- The first turn. -/
def turnCalled (s : Session) : SyncTurn :=
  .moves s.forgetUnreferenced (.capturing s.graph.toWorkflow)

/-- What the status says after a picture was asked for: an old problem is forgotten, or the failure
is the problem. -/
def pictureNotice : Except Failure (Option String) → Option String
  | .ok _ => none
  | .error e => Operation.sync.notice? e

/-- The picture, if there is one. -/
def pictureOf : Except Failure (Option String) → Option String
  | .ok picture => picture
  | .error _ => none

/-- The picture was taken or not, and the sync joins the line. A notice about the picture replaces
the last problem, so this is where an old one is cleared. -/
def turnCaptured (s : Session) (w : Workflow) (picture : Except Failure (Option String)) :
    SyncTurn :=
  let (ticket, lock) := s.lock.join
  .moves { s with status := { s.status with message := pictureNotice picture }, lock := lock }
    (.queued ticket w (pictureOf picture))

/-- Begins a generation, with the lock in hand: the task before is told to end. -/
def beginGeneration (s : Session) : Option Nat × Session :=
  let (before, desk) := s.desk.signalCancel
  let project := { desk.project with updatedAt := s.clock }
  (before,
    { s with
      desk := { desk with project := project }
      status := { s.status with syncing := true }
      generation := s.generation + 1 })

/-- Once the lock is held, a generation begins, and the task before has to end. -/
def turnQueued (s : Session) (ticket : Nat) (w : Workflow) (picture : Option String) : SyncTurn :=
  if s.lock.isHeldBy ticket then
    let (before, s) := beginGeneration s
    .moves s (.stopping ticket s.generation w picture before)
  else .waits

/-- Leaves the line, so that the next one holds the lock. -/
def releaseLock (s : Session) (ticket : Nat) : Session := { s with lock := s.lock.leave ticket }

/-- A failure with the lock in hand. -/
def fail (s : Session) (ticket : Nat) (e : Failure) : SyncTurn :=
  .ends (releaseLock (s.recordFailure e) ticket) (.error e)

/-- A project with a snapshot of the graph, and a new picture if there is one. -/
def snapshot (p : Project) (w : Workflow) (picture : Option String) : Project :=
  { p with workflow := w, thumbnail := picture.or p.thumbnail }

/-- Whether a task has ended, if there was one. -/
def hasEnded (d : Desk) (before : Option Nat) : Bool :=
  match before with
  | none => true
  | some ticket => d.isClosed ticket

/-- Once the task before has ended, the project takes the graph's snapshot and is to be submitted,
if the slot allows it. -/
def turnStopping (s : Session) (ticket generation : Nat) (w : Workflow) (picture : Option String)
    (before : Option Nat) : SyncTurn :=
  if hasEnded s.desk before then
    match s.desk.beginSubmission with
    | .error e => fail s ticket e
    | .ok d =>
      let p := snapshot d.project w picture
      .moves { s with desk := { d with project := p } } (.submitting ticket generation p)
  else .waits

/-- Gives up the lock and joins its line again, with what became of the task. -/
def comeBack (s : Session) (generation : Nat) (outcome : Option Monitor.Outcome) : SyncTurn :=
  let (ticket, lock) := s.lock.join
  .moves { s with lock := lock } (.returning ticket generation outcome)

/-- Ends the submission in the slot, which may have moved on. -/
def endSubmission (s : Session) (outcome : TaskState) : Session :=
  s.onDesk fun d ↦ d.attempt (d.finishSubmission outcome)

/-- A failed submission ends the sync, a finished project is taken at once, and a task is followed
from now on, without the lock. -/
def turnAnswered (s : Session) (ticket generation : Nat) (reply : Except Failure SubmitReply) :
    SyncTurn :=
  match reply with
  | .error e => fail (endSubmission s .errored) ticket e
  | .ok (.done p) =>
    comeBack (releaseLock (endSubmission (s.onProject fun _ ↦ p) .completed) ticket) generation none
  | .ok (.task id) =>
    match Monitor.register s.desk id with
    | .ok (m, desk) => .moves (releaseLock { s with desk := desk } ticket) (.following generation m)
    | .error e => comeBack (releaseLock s ticket) generation (some (.error e))

/-- The sync follows its task, and comes back for the lock when the task has ended. -/
def turnFollowing (s : Session) (generation : Nat) (m : Monitor) : SyncTurn :=
  match m.turn s.desk with
  | .waits => .waits
  | .moves desk m => .moves { s with desk := desk } (.following generation m)
  | .ends desk outcome => comeBack { s with desk := desk } generation (some outcome)

/-- The end of a sync that was overtaken. -/
def overtaken : Option Monitor.Outcome → Except Failure Unit
  | some (.error e) => if e.isCancelled then .ok () else .error e
  | _ => .ok ()

/-- What the status says of a task that timed out. -/
def timeoutNotice (taskId : String) : String := "Task " ++ taskId ++ " timed out"

/-- The end of a sync that was not overtaken. -/
def conclude (s : Session) : Option Monitor.Outcome → Session × Except Failure Unit
  | none => (s.writeBack, .ok ())
  | some (.ok r) =>
    if r.state = .timedOut then
      ((s.onStatus fun t ↦ { t with message := some (timeoutNotice r.taskId) }).writeBack, .ok ())
    else (s.writeBack, .ok ())
  | some (.error e) => if e.isCancelled then (s, .ok ()) else (s.recordFailure e, .error e)

/-- Once the lock is held again, a sync that is still the latest concludes, and one that was
overtaken changes nothing. -/
def turnReturning (s : Session) (ticket generation : Nat) (outcome : Option Monitor.Outcome) :
    SyncTurn :=
  if !s.lock.isHeldBy ticket then .waits
  else if s.generation = generation then
    let (s, result) := conclude s outcome
    .ends (releaseLock s ticket) result
  else .ends (releaseLock s ticket) (overtaken outcome)

/-- A turn of a sync, place by place. Where it has asked for something it waits. -/
def turn (s : Session) : SyncStage → SyncTurn
  | called => turnCalled s
  | capturing _ => .waits
  | captured w picture => turnCaptured s w picture
  | queued ticket w picture => turnQueued s ticket w picture
  | stopping ticket generation w picture before => turnStopping s ticket generation w picture before
  | submitting _ _ _ => .waits
  | answered ticket generation reply => turnAnswered s ticket generation reply
  | following generation m => turnFollowing s generation m
  | returning ticket generation outcome => turnReturning s ticket generation outcome

/-- What a sync waits for from outside. -/
def question? : SyncStage → Option (Question SyncStage)
  | capturing w => some ⟨.thumbnail, fun a ↦ captured w a⟩
  | submitting ticket generation p =>
    some ⟨.submission p, fun a ↦ answered ticket generation a⟩
  | _ => none

/-- A sync that is given up leaves the line of the lock, and its task counts as cancelled. -/
def abandon (s : Session) : SyncStage → Session
  | called | capturing _ | captured _ _ => s
  | queued ticket _ _ | stopping ticket _ _ _ _ | submitting ticket _ _ | answered ticket _ _
  | returning ticket _ _ => releaseLock s ticket
  | following _ m => s.onDesk fun d ↦ m.abandon d

end SyncStage

end GraphSession
