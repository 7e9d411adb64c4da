import GraphSession.Json.Reader
import GraphSession.Output.Wire
import GraphSession.Project.Submission
import GraphSession.Text.Percent

/-!
# Calls to the backend

Every service of the backend is one endpoint:

| Call | Request |
|---|---|
| submit | `POST projects/ID/sync` |
| list, fetch projects | `GET projects`, `GET projects/ID` |
| create, rename, delete projects | `POST projects`, `PATCH projects/ID`, `DELETE projects/ID` |
| list, read, delete files | `GET files`, `GET files/KEY`, `DELETE files/KEY` |
| upload | `POST files/ID/NODE?filename=NAME` |
| view of an output | `GET data/HANDLE` |

Names that are not numbers are percent-encoded, so that each stays one segment of the path or one
value of the query.
-/

namespace GraphSession

/-- What is to be done with what is at an address. -/
inductive HttpMethod where
  | get | post | patch | delete
  deriving DecidableEq

namespace HttpMethod

/-- The method as it is written in a request. -/
def name : HttpMethod → String
  | get => "GET"
  | post => "POST"
  | patch => "PATCH"
  | delete => "DELETE"

end HttpMethod

/-- A call to the backend. -/
inductive RemoteCall where
  | submit (p : Project)
  | listProjects
  | fetchProject (id : Int)
  | createProject (name : String)
  | deleteProject (id : Int)
  | renameProject (id : Int) (name : String)
  | listFiles
  | upload (projectId : Int) (nodeId filename : String) (bytes : List UInt8)
  | content (key : String)
  | deleteFile (key : String)
  | view (handle : DataHandle)

/-- What a request carries. -/
inductive Payload where
  | nothing
  | document (j : Json)
  | raw (bytes : List UInt8)

namespace Payload

/-- What a body is declared as, if there is one. -/
def contentType? : Payload → Option String
  | nothing => none
  | document _ => some "application/json"
  | raw _ => some "application/octet-stream"

/-- The bytes of a body, which for a document are those of its text. -/
def bytes : Payload → List UInt8
  | nothing => []
  | document j => Utf8.bytesOf j.text
  | raw bs => bs

end Payload

namespace RemoteCall

/-- What a call answers. -/
abbrev Answer : RemoteCall → Type
  | submit _ => SubmitReply
  | listProjects => List ProjectSummary
  | fetchProject _ | createProject _ => Project
  | deleteProject _ | renameProject _ _ | deleteFile _ => Unit
  | listFiles => List FileRef
  | upload _ _ _ _ => FileRef
  | content _ => FileContent
  | view _ => OutputView

/-- The method by which a call is made: what creates something posts it. -/
def method : RemoteCall → HttpMethod
  | submit _ | createProject _ | upload _ _ _ _ => .post
  | renameProject _ _ => .patch
  | deleteProject _ | deleteFile _ => .delete
  | listProjects | fetchProject _ | listFiles | content _ | view _ => .get

/-- The path of a project below the address of the service. -/
def projectPath (id : Int) : String := "projects/" ++ (Json.int id).text

/-- The path of a file below the address of the service, with the key as one segment. -/
def filePath (key : String) : String := "files/" ++ Percent.component key

/-- The path of the endpoint, with its query. -/
def path : RemoteCall → String
  | submit p => projectPath p.id ++ "/sync"
  | listProjects | createProject _ => "projects"
  | fetchProject id | deleteProject id | renameProject id _ => projectPath id
  | listFiles => "files"
  | upload projectId nodeId filename _ =>
    "files/" ++ (Json.int projectId).text ++ "/" ++ Percent.component nodeId ++ "?filename=" ++
      Percent.component filename
  | content key | deleteFile key => filePath key
  | view handle => "data/" ++ Percent.component handle

/-- What a call sends along. -/
def payload : RemoteCall → Payload
  | submit p => .document p.encode
  | createProject name | renameProject _ name => .document (.obj [("name", .str name)])
  | upload _ _ _ bytes => .raw bytes
  | _ => .nothing

end RemoteCall

end GraphSession
