import GraphSession.Failure.Basic
import GraphSession.Url.Reader

/-!
# Addresses of task channels

The channel of a task has the address of the endpoint extended by `tasks` and the id of the task,
each as one segment; a query and a fragment of the endpoint stay. The token travels as the last pair
of the query, since a channel is opened without headers.
-/

namespace GraphSession

/-- What a text that is no URL means for a connection. -/
def Url.require (text : String) : Except Failure Url :=
  match Url.ofText text with
  | .ok u => .ok u
  | .error e => .error (.transport (.invalidUrl e.message))

/-- The address of the channel of a task. -/
def taskAddress (endpoint : Url) (taskId : String) (token : Option String) : Except Failure Url :=
  match endpoint.extend? ["tasks", taskId] with
  | none => .error (.transport (.invalidUrl endpoint.text))
  | some u =>
    match token with
    | none => .ok u
    | some t => .ok (u.addPair "token" t)

end GraphSession
