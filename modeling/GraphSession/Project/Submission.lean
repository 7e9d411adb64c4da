import GraphSession.Project.Wire

/-!
# Answers to a submission

The backend either runs the project at once and answers with the result, or starts a task and
answers with its id. The two are told apart by their shape alone: *an object whose `task_id` is a
string is a task*, whatever else it holds; everything else has to be a project.

Since the shape decides, the whole answer has to be usable before either is tried.
-/

namespace GraphSession

/-- What the backend answers to a submission. -/
inductive SubmitReply where
  /-- A task was started; results follow over its channel. -/
  | task (id : String)
  /-- The project has been run. -/
  | done (project : Project)

namespace SubmitReply

/-- The task that is to be followed, if the reply names one. -/
def taskId? : SubmitReply → Option String
  | .task id => some id
  | .done _ => none

/-- A reply as an object: either of a task id alone, or the finished project. -/
def encode : SubmitReply → Json
  | .task id => .obj [("task_id", .str id)]
  | .done p => p.encode

/-- The id of an answer that has the shape of a task. -/
def decodeTask : Tree → Option String
  | .obj fields =>
    match Record.ofFields "struct variant SubmitResponse::Task" ["task_id"] fields with
    | .ok r =>
      match r.finish (r.required "task_id" Tree.string) with
      | .ok id => some id
      | .error _ => none
    | .error _ => none
  | _ => none

/-- A reply from a tree. A task id is looked for first, so a project with such a field would be
taken for a task. -/
def decode : Decoder SubmitReply := fun t ↦
  if t.usable then
    match decodeTask t with
    | some id => .ok (.task id)
    | none =>
      match Project.decode t with
      | .ok p => .ok (.done p)
      | .error _ => .error (.noAlternative "SubmitResponse")
  else .error .unusable

end SubmitReply

end GraphSession
