import GraphSession.Task.Monitor

/-!
# Calls about tasks

A call follows a task, or cancels the task in the slot and waits until it has ended. A call that was
refused when it was made returns its refusal at its first turn.
-/

namespace GraphSession

/-- Where a call about tasks has got to. -/
inductive TaskCall where
  | follow (m : Monitor)
  | refused (cause : Failure)
  | cancel
  | awaitEnd (ticket : Nat)

/-- What a call about tasks comes to. -/
inductive TaskResult where
  | followed (outcome : Monitor.Outcome)
  | cancelled

namespace TaskCall

/-- Registers a task and follows it, or is refused. -/
def monitor (d : Desk) (taskId : String) : TaskCall × Desk :=
  match Monitor.register d taskId with
  | .ok r => (.follow r.1, r.2)
  | .error e => (.refused e, d)

/-- A turn of a call. A cancellation has two: it tells the task in the slot to end, and then it
waits until its guard is gone. -/
def turn (d : Desk) : TaskCall → Turn Desk TaskCall TaskResult
  | .follow m => (m.turn d).map id .follow .followed
  | .refused e => .ends d (.followed (.error e))
  | .cancel =>
    match d.signalCancel with
    | (none, d) => .ends d .cancelled
    | (some ticket, d) => .moves d (.awaitEnd ticket)
  | .awaitEnd ticket => if d.isClosed ticket then .ends d .cancelled else .waits

/-- Gives up a call, and with it the task that it follows. -/
def abandon (d : Desk) : TaskCall → Desk
  | .follow m => m.abandon d
  | _ => d

/-- Calls about tasks, for a flight. -/
def machine : Machine Desk TaskCall TaskResult := ⟨turn, abandon⟩

end TaskCall

end GraphSession
