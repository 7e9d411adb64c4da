import GraphSession.Cache.Files
import GraphSession.Cache.Results
import GraphSession.Failure.Notice
import GraphSession.Session.Lock
import GraphSession.Session.Status
import GraphSession.Settings.Basic
import GraphSession.Task.Desk

/-!
# Sessions

A session is one open project: the project as the backend knows it, which lies on the task desk, the
graph as the editor shows it, the status of syncing, and the caches.

**Two copies of the graph.** Tasks write to the project, users write to the graph. A sync takes the
graph into the project when it begins, and the project back into the graph when it ends.

**Generations.** Every sync that gets the lock begins a generation. A sync may write its results
back, and may touch the status at its end, only while its generation is the current one.
-/

namespace GraphSession

/-- All that calls on a session share. -/
structure Session where
  desk : Desk
  graph : EditorGraph
  status : SyncStatus
  lock : Lock
  generation : Nat
  files : FileCache
  results : ResultCache
  /-- The time of day, which is written into the project and the status. -/
  clock : Moment

/-- Which of those that a session depends on are there. -/
structure Collaborators where
  backend : Bool
  channels : Bool
  files : Bool
  results : Bool
  deriving DecidableEq

namespace Collaborators

/-- Nobody is missing. -/
def all : Collaborators := ⟨true, true, true, true⟩

/-- The first that is not there. -/
def missing? (c : Collaborators) : Option String :=
  if !c.backend then some "backend"
  else if !c.channels then some "channel connector"
  else if !c.files then some "file service"
  else if !c.results then some "result-data service"
  else none

end Collaborators

namespace Session

/-- The project that tasks write to. -/
def project (s : Session) : Project := s.desk.project

/-- A session for a project, if the settings make one. -/
def start (settings : Settings) (p : Project) (clock : Moment) : Session :=
  { desk := .start p settings.taskTimeout
    graph := .ofWorkflow p.workflow
    status := .fresh
    lock := .free
    generation := 0
    files := .ofCapacity settings.fileCacheSize none
    results := .ofCapacity settings.resultCacheSize (some settings.resultBasicDuration)
    clock := clock }

/-- A session for a project. Settings are looked at before collaborators. -/
def build (settings : Settings) (given : Collaborators) (p : Project) (clock : Moment) :
    Except Failure Session :=
  match settings.validate, given.missing? with
  | .error e, _ => .error e
  | .ok _, some what => .error (.settings ("session requires a " ++ what))
  | .ok _, none => .ok (start settings p clock)

/-- Changes the desk alone. -/
def onDesk (s : Session) (f : Desk → Desk) : Session := { s with desk := f s.desk }

/-- Changes the graph alone. -/
def onGraph (s : Session) (f : EditorGraph → EditorGraph) : Session := { s with graph := f s.graph }

/-- Changes the status alone. -/
def onStatus (s : Session) (f : SyncStatus → SyncStatus) : Session :=
  { s with status := f s.status }

/-- Changes the project alone. -/
def onProject (s : Session) (f : Project → Project) : Session :=
  s.onDesk fun d ↦ { d with project := f d.project }

/-- The sync is over and failed. -/
def recordFailure (s : Session) (e : Failure) : Session :=
  s.onStatus fun t ↦ { t with syncing := false, message := Operation.sync.notice? e }

/-- Takes the workflow of the project into the graph. -/
def writeBack (s : Session) : Session :=
  { s with
    graph := s.graph.adopt s.project.workflow
    status := { s.status with syncing := false, lastSynced := some s.clock } }

/-- Forgets the results that the graph does not refer to any more. -/
def forgetUnreferenced (s : Session) : Session :=
  { s with results := s.results.collectFor s.graph s.desk.now }

/-- Forgets the results that the project does not refer to any more: how many. -/
def collectGarbage (s : Session) : Nat × Session :=
  (s.results.countUnreferenced s.project.dataHandles s.desk.now,
    { s with results := s.results.collectGarbage s.project s.desk.now })

end Session

end GraphSession
