import GraphSession.Schedule.Turn
import GraphSession.Task.Desk

/-!
# Following a task

A registered task is followed by a monitor. It opens the channel of the task, takes frames one by
one, and ends in one of four ways: the server closes the channel, the time is up, the task is
cancelled, or the channel fails.

**Before every frame** the monitor looks whether the task has been cancelled, and then whether its
time is up, so a frame that is still in the channel after either is never taken in. It looks the
same way before the channel is open, for as long as the opening takes. The time counts from the
first turn of the monitor and is not renewed by frames.

**A cancelled task** is told so by an empty frame, and gets a grace in which its frames are thrown
away until the server closes; then the channel is closed from this side.
-/

namespace GraphSession

/-- How long a cancelled task may keep its channel, in milliseconds. -/
def cancelGrace : Nat := 5000

/-- What a client sends to cancel a task. -/
def cancelSignal : String := ""

/-- Where a monitor has got to. -/
inductive MonitorStage where
  | registered
  /-- Waits for the channel to open. -/
  | opening (deadline : Nat)
  | streaming (deadline channel : Nat) (messages : List TaskMessage) (rejected : Nat)
  | draining (channel graceEnd : Nat)

/-- Somebody who follows a task: which one, under which ticket, the nodes that run, and how far he
is. -/
structure Monitor where
  taskId : String
  ticket : Nat
  running : RunningNodes
  stage : MonitorStage

namespace Monitor

/-- What becomes of a task that was followed: a report, or a failure. -/
abbrev Outcome := Except Failure TaskReport

/-- A monitor that has not had a turn. -/
def registered (taskId : String) (ticket : Nat) : Monitor := ⟨taskId, ticket, ∅, .registered⟩

/-- Registers a task and follows it. -/
def register (d : Desk) (taskId : String) : Except Failure (Monitor × Desk) :=
  (d.register taskId).map fun r ↦ (registered taskId r.1, r.2)

/-- The task ends; its nodes are told to stop and the slot is released. -/
def finish (m : Monitor) (d : Desk) (outcome : TaskState) : Desk :=
  d.finish m.taskId m.ticket m.running outcome

/-- The end of a monitor whose channel is open. -/
def leave (m : Monitor) (d : Desk) (channel : Nat) (outcome : TaskState) : Desk :=
  (m.finish d outcome).onChannel channel Channel.clientClose

/-- The failure of a task that was told to end. -/
def cancelledError (m : Monitor) : Outcome := .error (.taskCancelled m.taskId)

/-- Opens the channel, if the task has not been cancelled and its time is not up. -/
def turnOpening (m : Monitor) (d : Desk) (deadline : Nat) : Turn Desk Monitor Outcome :=
  if d.isCancelled m.ticket then .ends (m.finish d .cancelled) m.cancelledError
  else if deadline ≤ d.now then .ends (m.finish d .timedOut) (.ok ⟨m.taskId, .timedOut, [], 0⟩)
  else if d.connector.heldUp then .waits
  else
    match d.connector.openFor m.taskId with
    | (.error e, connector) =>
      .ends (m.finish { d with connector := connector } .errored) (.error e)
    | (.ok n, connector) =>
      .moves { d with connector := connector } { m with stage := .streaming deadline n [] 0 }

/-- The first turn: the time begins to count, and the channel is opened if that goes at once. -/
def turnRegistered (m : Monitor) (d : Desk) : Turn Desk Monitor Outcome :=
  match m.turnOpening d (d.now + d.timeout) with
  | .waits => .moves d { m with stage := .opening (d.now + d.timeout) }
  | t => t

/-- Takes in a frame. One that is no message at all is passed over. -/
def takeFrame (m : Monitor) (d : Desk) (deadline channel : Nat) (messages : List TaskMessage)
    (rejected : Nat) (text : String) : Turn Desk Monitor Outcome :=
  match Frame.ofText? text with
  | none => .moves d { m with stage := .streaming deadline channel messages rejected }
  | some f =>
    let (d, running, failed) := d.takeMessage m.running f.message
    .moves d
      { m with
        running := running
        stage := .streaming deadline channel (messages ++ [f.message])
          (rejected + f.rejected.length + failed) }

/-- A turn of a monitor whose channel is open. Being told to end comes before the deadline, and both
come before any text. -/
def turnStreaming (m : Monitor) (d : Desk) (deadline channel : Nat) (messages : List TaskMessage)
    (rejected : Nat) : Turn Desk Monitor Outcome :=
  if d.isCancelled m.ticket then
    .moves
      (d.onChannel channel fun c ↦
        match c.clientSend cancelSignal with
        | .ok c' => c'
        | .error _ => c)
      { m with stage := .draining channel (d.now + cancelGrace) }
  else if deadline ≤ d.now then
    .ends (m.leave d channel .timedOut) (.ok ⟨m.taskId, .timedOut, messages, rejected⟩)
  else
    match d.connector.channel? channel with
    | none => .waits
    | some c =>
      match c.clientReceive with
      | (.pending, _) => .waits
      | (.frame (.ok text), c') =>
        m.takeFrame (d.onChannel channel fun _ ↦ c') deadline channel messages rejected text
      | (.frame (.error e), _) => .ends (m.leave d channel .errored) (.error e)
      | (.closed, _) =>
        .ends (m.leave d channel .completed) (.ok ⟨m.taskId, .completed, messages, rejected⟩)

/-- A turn of a monitor that was told to end. Texts are thrown away until the server closes or the
time of grace is over. -/
def turnDraining (m : Monitor) (d : Desk) (channel graceEnd : Nat) : Turn Desk Monitor Outcome :=
  match d.connector.channel? channel with
  | none => .waits
  | some c =>
    match c.clientReceive with
    | (.frame (.ok _), c') => .moves (d.onChannel channel fun _ ↦ c') m
    | (.pending, _) =>
      if graceEnd ≤ d.now then .ends (m.leave d channel .cancelled) m.cancelledError else .waits
    | _ => .ends (m.leave d channel .cancelled) m.cancelledError

/-- A turn of a monitor, stage by stage. -/
def turn (d : Desk) (m : Monitor) : Turn Desk Monitor Outcome :=
  match m.stage with
  | .registered => m.turnRegistered d
  | .opening deadline => m.turnOpening d deadline
  | .streaming deadline channel messages rejected =>
    m.turnStreaming d deadline channel messages rejected
  | .draining channel graceEnd => m.turnDraining d channel graceEnd

/-- The channel of a monitor, once it is open. -/
def channel? (m : Monitor) : Option Nat :=
  match m.stage with
  | .registered | .opening _ => none
  | .streaming _ n _ _ => some n
  | .draining n _ => some n

/-- A monitor that is given up: its task counts as cancelled. -/
def abandon (d : Desk) (m : Monitor) : Desk :=
  match m.channel? with
  | none => m.finish d .cancelled
  | some n => m.leave d n .cancelled

end Monitor

end GraphSession
