import GraphSession.Schedule.Turn
import GraphSession.Session.Basic
import GraphSession.Session.Question

/-!
# Access to files and outputs

Contents of files and views of outputs are read through the caches of a session. Uploads and deletes
go to the store, and once it has answered the cache forgets what it held under the key.
-/

namespace GraphSession

/-- Where a call about files or outputs has got to. -/
inductive Access where
  | content (key : String)
  /-- The content was not cached, and is asked for. -/
  | fetching (key : String)
  | fetched (key : String) (r : Except Failure FileContent)
  | upload (projectId : Int) (nodeId filename : String) (bytes : List UInt8)
  | uploaded (r : Except Failure FileRef)
  | deletion (key : String)
  | deleted (key : String) (r : Except Failure Unit)
  | view (handle : DataHandle)
  /-- The view was not cached, and is asked for. -/
  | looking (handle : DataHandle)
  | looked (handle : DataHandle) (r : Except Failure OutputView)

/-- What an access comes to. -/
inductive AccessResult where
  | content (r : Except Failure FileContent)
  | uploaded (r : Except Failure FileRef)
  | deleted (r : Except Failure Unit)
  | view (r : Except Failure OutputView)

/-- A turn of an access. -/
abbrev AccessTurn := Turn Session Access AccessResult

namespace Access

/-- Reads a file: what is cached is returned at once, and otherwise it has to be fetched. -/
def turnContent (s : Session) (key : String) : AccessTurn :=
  match s.files.beginFetch key s.desk.now with
  | (some c, files) => .ends { s with files := files } (.content (.ok c))
  | (none, files) => .moves { s with files := files } (.fetching key)

/-- Looks at an output: what is cached is returned at once, and otherwise it has to be fetched. -/
def turnView (s : Session) (handle : DataHandle) : AccessTurn :=
  match s.results.beginFetch handle s.desk.now with
  | (some v, results) => .ends { s with results := results } (.view (.ok v))
  | (none, results) => .moves { s with results := results } (.looking handle)

/-- A turn of an access. What was fetched is cached, what was changed is dropped, and a call that
has asked for something waits. -/
def turn (s : Session) : Access → AccessTurn
  | content key => turnContent s key
  | fetched key r => .ends { s with files := s.files.endFetch key r s.desk.now } (.content r)
  | uploaded r => .ends { s with files := FileCache.afterUpload s.files r } (.uploaded r)
  | deleted key r => .ends { s with files := FileCache.afterDelete s.files key r } (.deleted r)
  | view handle => turnView s handle
  | looked handle r => .ends { s with results := s.results.endFetch handle r s.desk.now } (.view r)
  | fetching _ | upload _ _ _ _ | deletion _ | looking _ => .waits

/-- What a call waits for from outside. -/
def question? : Access → Option (Question Access)
  | fetching key => some ⟨.content key, fun a ↦ fetched key a⟩
  | upload projectId nodeId filename bytes =>
    some ⟨.upload projectId nodeId filename bytes, fun a ↦ uploaded a⟩
  | deletion key => some ⟨.deletion key, fun a ↦ deleted key a⟩
  | looking handle => some ⟨.view handle, fun a ↦ looked handle a⟩
  | _ => none

end Access

end GraphSession
