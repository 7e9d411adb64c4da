import GraphSession.Patch.Path
import GraphSession.Task.State

/-!
# Failures

Every way in which a call can fail is a constructor with the data its message names, so that what
is shown to a user is decided from the cause and never from the wording. The wording is in
`Failure.message` alone; of a text that could not be read only the fact is kept.
-/

namespace GraphSession

/-- A failure of a request or a channel, without an answer from the other side. -/
inductive TransportFailure where
  /-- A request was not sent, or its answer could not be read. -/
  | request (reason : String)
  | connectionClosed
  /-- A frame is no text. -/
  | invalidMessage (reason : String)
  | webSocket (reason : String)
  | invalidUrl (reason : String)
  deriving DecidableEq

namespace TransportFailure

/-- What is shown of a failed transport, after a word for the kind of the failure. -/
def message : TransportFailure → String
  | .request reason => "request failed: " ++ reason
  | .connectionClosed => "connection closed"
  | .invalidMessage reason => "invalid message: " ++ reason
  | .webSocket reason => "websocket error: " ++ reason
  | .invalidUrl reason => "invalid url: " ++ reason

end TransportFailure

/-- Why a call failed. -/
inductive Failure where
  | transport (cause : TransportFailure)
  /-- The backend answered with a status that is no success. -/
  | api (status : Nat) (body : String)
  /-- The task was cancelled; nothing to show to a user. -/
  | taskCancelled (taskId : String)
  /-- The slot is taken by a task. -/
  | taskActive (taskId : String)
  | invalidTransition (source target : TaskState)
  | patch (cause : PatchFault)
  /-- A text does not decode. -/
  | serialization
  | settings (reason : String)
  | thumbnail (reason : String)
  deriving DecidableEq

namespace Failure

/-- The decimal digits of a number. -/
def decimal (n : Nat) : String := String.ofList (Nat.toDigits 10 n)

/-- What is shown of a failure. The texts of causes stand at the end, as they are. -/
def message : Failure → String
  | .transport cause => "transport error: " ++ cause.message
  | .api status body => "api error (status " ++ decimal status ++ "): " ++ body
  | .taskCancelled id => "task " ++ id ++ " was cancelled"
  | .taskActive id => "task " ++ id ++ " is still active"
  | .invalidTransition s t =>
    "invalid task transition from " ++ s.name ++ " to " ++ t.name
  | .patch cause => cause.message
  | .serialization => "serialization error"
  | .settings reason => "configuration error: " ++ reason
  | .thumbnail reason => "thumbnail capture failed: " ++ reason

/-- Somebody wanted the task to end; that is no failure to report. -/
def isCancelled : Failure → Bool
  | .taskCancelled _ => true
  | _ => false

/-- The status that the backend answered with. -/
def status? : Failure → Option Nat
  | .api status _ => some status
  | _ => none

end Failure

/-- Moving the slot, if the step is one of the allowed ones. -/
def TaskState.step (s t : TaskState) : Except Failure TaskState :=
  if s.canBecome t then .ok t else .error (.invalidTransition s t)

end GraphSession
