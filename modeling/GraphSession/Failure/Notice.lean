import GraphSession.Failure.Basic

/-!
# What a user is told

A failed operation becomes one sentence for a notification, by the operation and the cause. The
match is total; a cancelled task is no failure and gives no sentence.
-/

namespace GraphSession

/-- What was being done when a call failed. -/
inductive Operation where
  | login | signup | fileUpload | fileFetch | fileDelete
  | projectFetch | projectCreate | projectDelete | projectRename | sync
  deriving DecidableEq

namespace Operation

/-- All operations, in the order in which they are listed when a name is unknown. -/
def all : List Operation :=
  [login, signup, fileUpload, fileFetch, fileDelete, projectFetch, projectCreate, projectDelete,
    projectRename, sync]

/-- The operation in words. -/
def title : Operation → String
  | login => "login"
  | signup => "signup"
  | fileUpload => "file upload"
  | fileFetch => "file fetch"
  | fileDelete => "file delete"
  | projectFetch => "project fetch"
  | projectCreate => "project create"
  | projectDelete => "project delete"
  | projectRename => "project rename"
  | sync => "sync"

/-- The name on the wire: the words joined by underscores. -/
def name (op : Operation) : String :=
  String.ofList (op.title.toList.map fun c ↦ if c = ' ' then '_' else c)

/-- The operation of a name, if there is one. -/
def ofName? (s : String) : Option Operation := all.find? fun op ↦ op.name = s

/-- An operation as its name. -/
def encode (op : Operation) : Json := .str op.name

/-- An operation from its name. -/
def decode : Decoder Operation := Tree.choice ofName? (all.map name)

/-- What a status means for an operation, where it means something. -/
def knownStatus? : Operation → Nat → Option String
  | _, 500 => some "Internal server error"
  | login, 401 => some "Invalid credentials"
  | login, 404 => some "User not found"
  | signup, 409 => some "Username already taken"
  | login, 422 => some "Invalid username or password format"
  | signup, 422 => some "Invalid username or password format"
  | _, 401 => some "Session expired, please log in again"
  | fileUpload, 404 => some "Project or node not found"
  | fileUpload, 413 => some "File too large"
  | fileUpload, 415 => some "Unsupported file type"
  | fileFetch, 404 => some "File not found"
  | fileDelete, 404 => some "File not found"
  | projectFetch, 404 => some "Project not found"
  | projectDelete, 404 => some "Project not found"
  | projectRename, 404 => some "Project not found"
  | projectCreate, 409 => some "A project with this name already exists"
  | projectRename, 409 => some "A project with this name already exists"
  | projectCreate, 422 => some "Invalid project name"
  | projectRename, 422 => some "Invalid project name"
  | sync, 404 => some "Project not found"
  | sync, 422 => some "Workflow could not be processed"
  | _, 403 => some "Permission denied"
  | _, _ => none

/-- What a status means for an operation. -/
def statusNotice (op : Operation) (status : Nat) : String :=
  (op.knownStatus? status).getD ("Unknown error, status " ++ Failure.decimal status)

/-- What a user is told about a failure. -/
def notice? (op : Operation) : Failure → Option String
  | .taskCancelled _ => none
  | .api status _ => some (op.statusNotice status)
  | .transport _ => some "Unable to reach the server, check your connection"
  | .serialization => some "Unexpected response from the server"
  | .taskActive _ => some "Another sync is still running"
  | .thumbnail reason => some ("Thumbnail capture failed: " ++ reason)
  | .settings reason => some ("Invalid configuration: " ++ reason)
  | .patch cause =>
    some ("Unexpected error during " ++ op.title ++ ": " ++ (Failure.patch cause).message)
  | .invalidTransition s t =>
    some ("Unexpected error during " ++ op.title ++ ": " ++ (Failure.invalidTransition s t).message)

end Operation

end GraphSession
