import GraphSession.Output.Basic
import GraphSession.Project.Submission
import GraphSession.Failure.Basic

/-!
# Questions to the outside

A session depends on others for pictures of the graph, for running projects, for files and for
outputs. A call that needs one of them asks a question and waits for the answer. The question
carries what becomes of the call with each answer, so nothing about the outside is assumed: any
answer may come, at any time, and every one may be a failure.
-/

namespace GraphSession

/-- What a call can ask for. -/
inductive Request where
  /-- A picture of the graph. -/
  | thumbnail
  /-- To run a project. -/
  | submission (p : Project)
  | files
  | content (key : String)
  | upload (projectId : Int) (nodeId filename : String) (bytes : List UInt8)
  | deletion (key : String)
  /-- The view of an output. -/
  | view (handle : DataHandle)

namespace Request

/-- What an answer holds that is no failure. -/
abbrev Answer : Request → Type
  /- The data URL of the picture, if there is one. -/
  | thumbnail => Option String
  | submission _ => SubmitReply
  | files => List FileRef
  | content _ => FileContent
  | upload _ _ _ _ => FileRef
  | deletion _ => Unit
  | view _ => OutputView

end Request

/-- A request, and what becomes of the call with each answer. -/
structure Question (κ : Type) where
  request : Request
  resume : Except Failure request.Answer → κ

namespace Question

variable {κ κ' : Type}

/-- The question of a call that is part of something larger. -/
def map (f : κ → κ') (q : Question κ) : Question κ' := ⟨q.request, fun a ↦ f (q.resume a)⟩

end Question

end GraphSession
